import Mathlib.Data.List.Chain
import Mathlib.Data.List.Infix

/-!
# Records closed by a two-item terminator

A stream of records, each closed by the same two items, can be cut where the pair
occurs as long as no record completes it early.
-/

namespace TaifexResolver

/-- Nowhere in the list is `first` followed by `second`. -/
def TerminatorFree {α : Type} (first second : α) (items : List α) : Prop :=
  items.IsChain fun item next => ¬(item = first ∧ next = second)

/-- A terminator-free list that does not end in `first`, so that nothing appended
to it completes a terminator. -/
structure Sealed {α : Type} (first second : α) (items : List α) : Prop where
  free : TerminatorFree first second items
  last : ∀ item ∈ items.getLast?, item ≠ first

namespace Sealed

variable {α : Type} {first second : α} {items rest : List α}

/-- A list without the first item of the terminator. -/
theorem of_forall_ne (absent : ∀ item ∈ items, item ≠ first) :
    Sealed first second items := by
  refine ⟨?_, fun item member => absent item (List.mem_of_getLast? member)⟩
  induction items with
  | nil => exact .nil
  | cons item rest inductionHypothesis =>
      refine List.isChain_cons.mpr ⟨fun _ _ pair => ?_, inductionHypothesis
        fun later member => absent later (List.mem_cons_of_mem item member)⟩
      exact absent item (by simp) pair.1

theorem append
    (head : Sealed first second items)
    (tail : Sealed first second rest) :
    Sealed first second (items ++ rest) := by
  refine ⟨?_, fun item member => ?_⟩
  · exact List.IsChain.append head.free tail.free
      fun item member _ _ pair => head.last item member pair.1
  · rw [List.getLast?_append] at member
    cases found : rest.getLast? with
    | none =>
        rw [found] at member
        exact head.last item member
    | some final =>
        rw [found] at member
        exact tail.last item (found.trans member)

/-- Any item may stand before a list that starts with something other than the
second item of the terminator. -/
theorem cons
    (item : α)
    {next : α}
    (tail : Sealed first second (next :: rest))
    (starts : next ≠ second) :
    Sealed first second (item :: next :: rest) := by
  refine ⟨?_, fun final member => tail.last final ?_⟩
  · exact List.isChain_cons_cons.mpr ⟨fun pair => starts pair.2, tail.free⟩
  · rwa [List.getLast?_cons_cons] at member

/-- After a sealed list and one arbitrary item, the first item of the terminator
does not complete one. -/
theorem free_append_pair
    (distinct : first ≠ second)
    (head : Sealed first second items)
    (item : α) :
    TerminatorFree first second (items ++ [item, first]) := by
  refine List.IsChain.append head.free ?_
    fun previous member _ _ pair => head.last previous member pair.1
  exact List.isChain_pair.mpr fun pair => distinct pair.2

end Sealed

/-! ## Cutting a stream -/

section Cut

variable {α : Type} {first second : α}

/-- A record with its terminator. -/
def closeRecord (first second : α) (record : List α) : List α := record ++ [first, second]

/-- A stream cut at every terminator: records that hold none before their own, and a
tail that holds none. -/
structure Cut
    (first second : α)
    (stream : List α)
    (records : List (List α))
    (tail : List α) : Prop where
  covers : stream = records.flatMap (closeRecord first second) ++ tail
  recordsFree : ∀ record ∈ records, TerminatorFree first second (record ++ [first])
  tailFree : TerminatorFree first second tail

/-- In a terminator-free list the pair stands nowhere. -/
theorem TerminatorFree.not_pair
    {before after : List α}
    (free : TerminatorFree first second (before ++ first :: second :: after)) :
    False :=
  (List.isChain_cons_cons.mp (List.IsChain.right_of_append free)).1 ⟨rfl, rfl⟩

/-- A closed record holds the pair at its end only. -/
theorem TerminatorFree.pair_last
    {record : List α}
    (free : TerminatorFree first second (record ++ [first]))
    {before after : List α}
    (pair : closeRecord first second record = before ++ first :: second :: after) :
    after = [] := by
  rcases List.eq_nil_or_concat' after with rfl | ⟨shorter, final, rfl⟩
  · rfl
  · exfalso
    have cut : (record ++ [first]) ++ [second] =
        (before ++ first :: second :: shorter) ++ [final] := by
      simpa [closeRecord] using pair
    rw [(List.append_inj' cut rfl).1] at free
    exact free.not_pair

variable [DecidableEq α]

/-- A list is free of the terminator, or it can be cut where the terminator first
occurs. -/
theorem terminatorFree_or_cut (stream : List α) :
    TerminatorFree first second stream ∨
      ∃ record rest, stream = closeRecord first second record ++ rest ∧
        TerminatorFree first second (record ++ [first]) := by
  induction stream with
  | nil => exact Or.inl .nil
  | cons item stream inductionHypothesis =>
      by_cases here : item = first ∧ second ∈ stream.head?
      · obtain ⟨rfl, next⟩ := here
        obtain ⟨rest, rfl⟩ := List.head?_eq_some_iff.mp next
        exact Or.inr ⟨[], rest, rfl, .singleton item⟩
      · have noPair : ∀ next ∈ stream.head?, ¬(item = first ∧ next = second) :=
          fun next isHead pair => here ⟨pair.1, pair.2 ▸ isHead⟩
        rcases inductionHypothesis with free | ⟨record, rest, rfl, free⟩
        · exact Or.inl (List.isChain_cons.mpr ⟨noPair, free⟩)
        · refine Or.inr ⟨item :: record, rest, rfl, List.isChain_cons.mpr ⟨?_, free⟩⟩
          intro next isHead
          apply noPair next
          cases record <;> exact isHead

/-- Every stream can be cut. -/
theorem exists_cut (first second : α) (stream : List α) :
    ∃ records tail, Cut first second stream records tail := by
  generalize total : stream.length = size
  induction size using Nat.strong_induction_on generalizing stream with
  | _ size inductionHypothesis =>
      rcases @terminatorFree_or_cut α first second _ stream with
        free | ⟨record, rest, rfl, free⟩
      · exact ⟨[], stream, rfl, by simp, free⟩
      · have shorter : rest.length < size := by
          rw [← total, closeRecord, List.length_append, List.length_append,
            List.length_cons]
          omega
        obtain ⟨records, tail, cut⟩ := inductionHypothesis _ shorter rest rfl
        refine ⟨record :: records, tail, ?_, ?_, cut.tailFree⟩
        · rw [List.flatMap_cons, List.append_assoc, ← cut.covers]
        · exact List.forall_mem_cons.mpr ⟨free, cut.recordsFree⟩

namespace Cut

variable {stream tail : List α} {records : List (List α)}

omit [DecidableEq α] in
/-- The closed records end in the terminator, unless there is none. -/
theorem suffix_closed (cut : Cut first second stream records tail) :
    records.flatMap (closeRecord first second) = [] ∨
      [first, second] <:+ records.flatMap (closeRecord first second) := by
  rcases List.eq_nil_or_concat' records with rfl | ⟨earlier, last, rfl⟩
  · exact Or.inl rfl
  · refine Or.inr ⟨earlier.flatMap (closeRecord first second) ++ last, ?_⟩
    rw [List.flatMap_append, List.flatMap_singleton, closeRecord, List.append_assoc]

omit [DecidableEq α] in
/-- A free part after closed records does not end in the terminator, wherever the
terminator begins. -/
theorem not_suffix_append_free
    (distinct : first ≠ second)
    {closed free : List α}
    (ending : closed = [] ∨ [first, second] <:+ closed)
    (isFree : TerminatorFree first second free)
    (nonempty : free ≠ []) :
    ¬[first, second] <:+ closed ++ free := by
  rintro ⟨before, spelled⟩
  obtain ⟨middle, final, rfl⟩ := (List.eq_nil_or_concat' free).resolve_left nonempty
  have lasts : (before ++ [first]) ++ [second] = (closed ++ middle) ++ [final] := by
    simpa using spelled
  obtain ⟨earlier, same⟩ := List.append_inj' lasts rfl
  cases same
  rcases List.eq_nil_or_concat' middle with rfl | ⟨start, previous, rfl⟩
  · rw [List.append_nil] at earlier
    rcases ending with empty | ⟨front, ended⟩
    · rw [empty] at earlier
      simp at earlier
    · rw [← ended] at earlier
      have across : before ++ [first] = (front ++ [first]) ++ [second] := by
        simpa using earlier
      obtain ⟨_, equal⟩ := List.append_inj' across rfl
      exact distinct (List.cons.inj equal).1
  · rw [← List.append_assoc] at earlier
    obtain ⟨_, equal⟩ := List.append_inj' earlier rfl
    cases equal
    simp only [List.append_assoc, List.cons_append, List.nil_append] at isFree
    exact isFree.not_pair

omit [DecidableEq α] in
/-- No prefix of the stream that ends in the terminator is longer than the closed
records. -/
theorem length_le_of_suffix
    (distinct : first ≠ second)
    (cut : Cut first second stream records tail)
    {other : List α}
    (isPrefix : other <+: stream)
    (ends : [first, second] <:+ other) :
    other.length ≤ (records.flatMap (closeRecord first second)).length := by
  by_contra longer
  rw [cut.covers] at isPrefix
  obtain ⟨reached, rfl⟩ := List.prefix_of_prefix_length_le
    (List.prefix_append _ tail) isPrefix (by omega)
  have inTail : reached <+: tail := (List.prefix_append_right_inj _).mp isPrefix
  have nonempty : reached ≠ [] := by
    rintro rfl
    rw [List.append_nil] at longer
    omega
  have free : TerminatorFree first second reached := cut.tailFree.prefix inTail
  exact not_suffix_append_free distinct cut.suffix_closed free nonempty ends

omit [DecidableEq α] in
/-- A stream that ends in the terminator has no tail. -/
theorem tail_eq_nil
    (distinct : first ≠ second)
    (cut : Cut first second stream records tail)
    (ends : [first, second] <:+ stream) :
    tail = [] := by
  have atMost := cut.length_le_of_suffix distinct (List.prefix_refl stream) ends
  have total := congrArg List.length cut.covers
  rw [List.length_append] at total
  exact List.length_eq_zero_iff.mp (by omega)

omit [DecidableEq α] in
/-- The cut of a stream that ends in the terminator followed by another stream. -/
theorem append
    {later laterTail : List α}
    {laterRecords : List (List α)}
    (former : Cut first second stream records [])
    (latter : Cut first second later laterRecords laterTail) :
    Cut first second (stream ++ later) (records ++ laterRecords) laterTail := by
  refine ⟨?_, ?_, latter.tailFree⟩
  · rw [former.covers, latter.covers, List.append_nil, List.flatMap_append,
      List.append_assoc]
  · intro record member
    rcases List.mem_append.mp member with early | late
    · exact former.recordsFree record early
    · exact latter.recordsFree record late

end Cut
end Cut
end TaifexResolver
