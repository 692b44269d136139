import Mathlib.Data.List.Basic

/-!
# Decoders that account for what they read

A decoder reads a memory from an offset on.  It returns a value, the number of
bytes it consumed and the indices it read, and carries the proof that it read
exactly the bytes it consumed, in order.  Such decoders form a monad, so a reader
of several fields accounts for all of them by construction.
-/

namespace TaifexResolver

/-- The byte at each index from a pointer on. -/
abbrev Memory := Nat → UInt8

namespace Memory

/-- The pointer moved forward. -/
def advance (memory : Memory) (start : Nat) : Memory := fun idx =>
  memory (start + idx)

/-- A memory that holds some bytes, and zeros after them. -/
def ofBytes (bytes : List UInt8) : Memory := fun idx => bytes.getD idx 0

/-- The bytes in a range of a memory. -/
def slice (memory : Memory) (offset size : Nat) : List UInt8 :=
  (List.range' offset size).map memory

/-- Whether a memory holds some bytes from an offset on. -/
def Holds (memory : Memory) (offset : Nat) (bytes : List UInt8) : Prop :=
  memory.slice offset bytes.length = bytes

instance (memory : Memory) (offset : Nat) (bytes : List UInt8) :
    Decidable (memory.Holds offset bytes) :=
  inferInstanceAs (Decidable (_ = _))

@[simp] theorem length_slice (memory : Memory) (offset size : Nat) :
    (memory.slice offset size).length = size := by
  simp [slice]

theorem slice_add (memory : Memory) (offset first second : Nat) :
    memory.slice offset (first + second) =
      memory.slice offset first ++ memory.slice (offset + first) second := by
  rw [slice, slice, slice, ← List.map_append, List.range'_append_1]

theorem slice_succ (memory : Memory) (offset size : Nat) :
    memory.slice offset (size + 1) =
      memory offset :: memory.slice (offset + 1) size := by
  rw [slice, List.range'_succ, List.map_cons]
  rfl

theorem slice_congr
    {memory other : Memory}
    {offset size : Nat}
    (agree : ∀ idx, offset ≤ idx → idx < offset + size → memory idx = other idx) :
    memory.slice offset size = other.slice offset size := by
  apply List.map_congr_left
  intro idx member
  obtain ⟨atLeast, below⟩ := List.mem_range'_1.mp member
  exact agree idx atLeast below

/-- A range around one of its indices. -/
theorem slice_around
    (memory : Memory)
    {offset size position : Nat}
    (atLeast : offset ≤ position)
    (below : position < offset + size) :
    memory.slice offset size =
      memory.slice offset (position - offset) ++
        memory position :: memory.slice (position + 1) (offset + size - (position + 1)) := by
  have sizes : size = position - offset + (offset + size - (position + 1) + 1) := by omega
  have here : offset + (position - offset) = position := by omega
  conv_lhs => rw [sizes, slice_add, here, slice_succ]

theorem slice_advance (memory : Memory) (start offset size : Nat) :
    (memory.advance start).slice offset size =
      memory.slice (start + offset) size := by
  induction size generalizing offset with
  | zero => rfl
  | succ size inductionHypothesis =>
      rw [slice_succ, slice_succ, inductionHypothesis, Nat.add_assoc]
      rfl

theorem holds_append
    {memory : Memory}
    {offset : Nat}
    {first second : List UInt8} :
    memory.Holds offset (first ++ second) ↔
      memory.Holds offset first ∧ memory.Holds (offset + first.length) second := by
  rw [Holds, List.length_append, slice_add]
  constructor
  · intro equal
    exact List.append_inj equal (length_slice memory offset first.length)
  · rintro ⟨firstHeld, secondHeld⟩
    rw [firstHeld, secondHeld]

theorem holds_cons
    {memory : Memory}
    {offset : Nat}
    {item : UInt8}
    {rest : List UInt8} :
    memory.Holds offset (item :: rest) ↔
      memory offset = item ∧ memory.Holds (offset + 1) rest := by
  rw [Holds, List.length_cons, slice_succ, List.cons_eq_cons]
  rfl

theorem holds_advance
    {memory : Memory}
    {start offset : Nat}
    {bytes : List UInt8} :
    (memory.advance start).Holds offset bytes ↔
      memory.Holds (start + offset) bytes := by
  rw [Holds, Holds, slice_advance]

/-- Memories that hold the same bytes agree on them. -/
theorem agree_of_holds
    {memory other : Memory}
    {bytes : List UInt8}
    (held : memory.Holds 0 bytes)
    (otherHeld : other.Holds 0 bytes)
    {idx : Nat}
    (inside : idx < bytes.length) :
    memory idx = other idx := by
  have same := congrArg (fun items => items[idx]?) (held.trans otherHeld.symm)
  simpa [slice, inside] using same

theorem holds_ofBytes (bytes : List UInt8) : (ofBytes bytes).Holds 0 bytes := by
  apply List.ext_getElem (by simp)
  intro idx _ inside
  simp [slice, ofBytes, List.getD, inside]

end Memory

/-- What a decoder yields. -/
structure Decoded (α : Type) where
  value : α
  size : Nat
  reads : List Nat

/-- A reader of consecutive bytes: the indices it reads are those it consumes. -/
structure Decoder (α : Type) where
  decode : Memory → Nat → Decoded α
  contiguous : ∀ memory offset, (decode memory offset).reads =
    List.range' offset (decode memory offset).size

namespace Decoder

variable {α β : Type}

instance : Monad Decoder where
  pure value :=
    { decode := fun _ _ => { value, size := 0, reads := [] }
      contiguous := fun _ _ => rfl }
  bind decoder next :=
    { decode := fun memory offset =>
        let head := decoder.decode memory offset
        let tail := (next head.value).decode memory (offset + head.size)
        { value := tail.value
          size := head.size + tail.size
          reads := head.reads ++ tail.reads }
      contiguous := fun memory offset => by
        simp only [contiguous, List.range'_append_1] }

/-- Read one byte. -/
def byte : Decoder UInt8 where
  decode memory offset :=
    { value := memory offset, size := 1, reads := [offset] }
  contiguous _ _ := rfl

/-- Read a field of several bytes. -/
def block (width : Nat) : Decoder (Vector UInt8 width) where
  decode memory offset :=
    { value := Vector.ofFn fun idx => memory (offset + idx)
      size := width
      reads := List.range' offset width }
  contiguous _ _ := rfl

/-- Run a decoder a number of times. -/
def times : Nat → Decoder α → Decoder (List α)
  | 0, _ => pure []
  | count + 1, decoder => do
      let head ← decoder
      let tail ← times count decoder
      return head :: tail

/-! ## Sizes -/

@[simp] theorem size_pure (value : α) (memory : Memory) (offset : Nat) :
    ((pure value : Decoder α).decode memory offset).size = 0 := rfl

@[simp] theorem size_bind
    (decoder : Decoder α)
    (next : α → Decoder β)
    (memory : Memory)
    (offset : Nat) :
    ((decoder >>= next).decode memory offset).size =
      (decoder.decode memory offset).size +
        ((next (decoder.decode memory offset).value).decode memory
          (offset + (decoder.decode memory offset).size)).size := rfl

@[simp] theorem size_byte (memory : Memory) (offset : Nat) :
    (byte.decode memory offset).size = 1 := rfl

@[simp] theorem value_byte (memory : Memory) (offset : Nat) :
    (byte.decode memory offset).value = memory offset := rfl

@[simp] theorem size_block (width : Nat) (memory : Memory) (offset : Nat) :
    ((block width).decode memory offset).size = width := rfl

/-- A field holds the bytes at the offset. -/
theorem toList_value_block (width : Nat) (memory : Memory) (offset : Nat) :
    ((block width).decode memory offset).value.toList =
      memory.slice offset width := by
  apply List.ext_getElem (by simp)
  intro idx _ inside
  simp [block, Memory.slice]

/-- A loop over records of one size. -/
theorem size_times
    {decoder : Decoder α}
    {size : Nat}
    (fixed : ∀ memory offset, (decoder.decode memory offset).size = size)
    (count : Nat)
    (memory : Memory)
    (offset : Nat) :
    ((times count decoder).decode memory offset).size = size * count := by
  induction count generalizing offset with
  | zero => rfl
  | succ count inductionHypothesis =>
      rw [times, size_bind, size_bind, fixed, inductionHypothesis, size_pure,
        Nat.mul_succ]
      omega

/-! ## Locality -/

/-- What a decoder yields depends only on the bytes it reads. -/
def IsLocal (decoder : Decoder α) : Prop :=
  ∀ memory other offset,
    (∀ idx ∈ (decoder.decode memory offset).reads, memory idx = other idx) →
    decoder.decode memory offset = decoder.decode other offset

namespace IsLocal

theorem pure (value : α) : IsLocal (Pure.pure value) := fun _ _ _ _ => rfl

theorem bind
    {decoder : Decoder α}
    {next : α → Decoder β}
    (head : IsLocal decoder)
    (tail : ∀ value, IsLocal (next value)) :
    IsLocal (decoder >>= next) := by
  intro memory other offset agree
  have headSame := head memory other offset fun idx read =>
    agree idx (List.mem_append_left _ read)
  have tailSame := tail _ memory other _ fun idx read =>
    agree idx (List.mem_append_right _ read)
  change Decoded.mk _ _ _ = Decoded.mk _ _ _
  rw [tailSame, headSame]

theorem map
    {decoder : Decoder α}
    (isLocal : IsLocal decoder)
    (compute : α → β) :
    IsLocal (do return compute (← decoder)) :=
  isLocal.bind fun value => pure (compute value)

theorem byte : IsLocal Decoder.byte := by
  intro memory other offset agree
  exact congrArg (fun value => Decoded.mk value 1 [offset])
    (agree offset List.mem_cons_self)

theorem block (width : Nat) : IsLocal (Decoder.block width) := by
  intro memory other offset agree
  have same : (Vector.ofFn fun idx : Fin width => memory (offset + idx)) =
      Vector.ofFn fun idx : Fin width => other (offset + idx) := by
    congr 1
    funext idx
    exact agree _ (List.mem_range'_1.mpr ⟨Nat.le_add_right _ _, by omega⟩)
  exact congrArg (fun value => Decoded.mk value width (List.range' offset width)) same

theorem times
    {decoder : Decoder α}
    (isLocal : IsLocal decoder)
    (count : Nat) :
    IsLocal (Decoder.times count decoder) := by
  induction count with
  | zero => exact pure []
  | succ count inductionHypothesis =>
      exact isLocal.bind fun head => inductionHypothesis.map (head :: ·)

end IsLocal

/-! ## What is yielded -/

/-- Whatever the memory holds, the value that a decoder yields has a property. -/
def Yields (decoder : Decoder α) (property : α → Prop) : Prop :=
  ∀ memory offset, property (decoder.decode memory offset).value

namespace Yields

theorem pure {property : α → Prop} {value : α} (holds : property value) :
    Yields (Pure.pure value) property := fun _ _ => holds

theorem bind
    {decoder : Decoder α}
    {next : α → Decoder β}
    {property : α → Prop}
    {result : β → Prop}
    (head : Yields decoder property)
    (tail : ∀ value, property value → Yields (next value) result) :
    Yields (decoder >>= next) result :=
  fun memory offset => tail _ (head memory offset) memory _

/-- The property does not depend on what a decoder of one field yields. -/
theorem skip
    {decoder : Decoder α}
    {next : α → Decoder β}
    {result : β → Prop}
    (tail : ∀ value, Yields (next value) result) :
    Yields (decoder >>= next) result :=
  fun memory _ => tail _ memory _

theorem times
    {decoder : Decoder α}
    {property : α → Prop}
    (each : Yields decoder property)
    (count : Nat) :
    Yields (Decoder.times count decoder) fun values => ∀ value ∈ values, property value := by
  induction count with
  | zero => exact pure fun _ member => absurd member List.not_mem_nil
  | succ count inductionHypothesis =>
      refine each.bind fun head holds => inductionHypothesis.bind fun tail rest => ?_
      exact pure (List.forall_mem_cons.mpr ⟨holds, rest⟩)

end Yields

/-! ## Decoding what was encoded -/

/-- Whenever a memory holds the bytes, the decoder yields the value and consumes
exactly them. -/
def Decodes (decoder : Decoder α) (bytes : List UInt8) (value : α) : Prop :=
  ∀ memory offset, Memory.Holds memory offset bytes →
    (decoder.decode memory offset).value = value ∧
      (decoder.decode memory offset).size = bytes.length

namespace Decodes

theorem pure (value : α) : Decodes (Pure.pure value) [] value :=
  fun _ _ _ => ⟨rfl, rfl⟩

theorem bind
    {decoder : Decoder α}
    {next : α → Decoder β}
    {bytes rest : List UInt8}
    {value : α}
    {result : β}
    (head : Decodes decoder bytes value)
    (tail : Decodes (next value) rest result) :
    Decodes (decoder >>= next) (bytes ++ rest) result := by
  intro memory offset held
  obtain ⟨headHeld, tailHeld⟩ := Memory.holds_append.mp held
  obtain ⟨headValue, headSize⟩ := head memory offset headHeld
  obtain ⟨tailValue, tailSize⟩ := tail memory (offset + bytes.length) tailHeld
  change ((next (decoder.decode memory offset).value).decode memory
      (offset + (decoder.decode memory offset).size)).value = result ∧
    (decoder.decode memory offset).size +
      ((next (decoder.decode memory offset).value).decode memory
        (offset + (decoder.decode memory offset).size)).size = _
  rw [headValue, headSize, tailSize, List.length_append]
  exact ⟨tailValue, rfl⟩

/-- A decoder that ends with a computation on what it decoded. -/
theorem map
    {decoder : Decoder α}
    {bytes : List UInt8}
    {value : α}
    (decodes : Decodes decoder bytes value)
    (compute : α → β) :
    Decodes (do return compute (← decoder)) bytes (compute value) := by
  have mapped : Decodes (do return compute (← decoder)) (bytes ++ [])
      (compute value) := decodes.bind (pure _)
  rwa [List.append_nil] at mapped

theorem byte (item : UInt8) : Decodes Decoder.byte [item] item := by
  intro memory offset held
  exact ⟨(Memory.holds_cons.mp held).1, rfl⟩

theorem block
    {width : Nat}
    (bytes : Vector UInt8 width) :
    Decodes (Decoder.block width) bytes.toList bytes := by
  intro memory offset held
  refine ⟨?_, bytes.length_toList.symm⟩
  apply Vector.ext
  intro idx inside
  have entry := congrArg (fun items => items[idx]?) held
  simpa [Decoder.block, Memory.slice, inside] using entry

/-- A loop decodes the concatenation of its records. -/
theorem times
    {decoder : Decoder α}
    {encode : α → List UInt8}
    {values : List α}
    {count : Nat}
    (counted : count = values.length)
    (each : ∀ value ∈ values, Decodes decoder (encode value) value) :
    Decodes (Decoder.times count decoder) (values.flatMap encode) values := by
  subst counted
  induction values with
  | nil => exact pure []
  | cons value rest inductionHypothesis =>
      have tail := inductionHypothesis fun later member =>
        each later (List.mem_cons_of_mem value member)
      exact (each value (by simp)).bind (tail.map (value :: ·))

/-- A decoder of consecutive fields, one field at a time. -/
theorem field
    {decoder : Decoder α}
    {next : α → Decoder β}
    {bytes : List UInt8}
    {fields : List (List UInt8)}
    {value : α}
    {result : β}
    (head : Decodes decoder bytes value)
    (tail : Decodes (next value) fields.flatten result) :
    Decodes (decoder >>= next) (bytes :: fields).flatten result :=
  head.bind tail

/-- The record is complete once its fields are used up. -/
theorem done
    {value result : α}
    (complete : value = result) :
    Decodes (Pure.pure value) [].flatten result :=
  complete ▸ pure value

end Decodes
end Decoder
end TaifexResolver
