import Mathlib.Data.List.AList

/-!
# Finite maps with unspecified iteration order

An unordered map is a list of entries with pairwise distinct keys.  Lookup and
insertion come from `AList`; this module adds the traversals a sweep over every
entry needs.  No lemma below depends on the position of an entry.
-/

namespace TaifexResolver

/-- A map from `K` to `V` whose iteration order carries no meaning. -/
abbrev UnorderedMap (K V : Type) := AList fun _ : K => V

namespace UnorderedMap

variable {K V W δ : Type}

/-- Apply a function to every value, keeping the keys. -/
def mapVals
    (f : K → V → W)
    (table : UnorderedMap K V) : UnorderedMap K W where
  entries := table.entries.map fun entry => ⟨entry.1, f entry.1 entry.2⟩
  nodupKeys := by
    have keysKept :
        (table.entries.map fun entry =>
          (⟨entry.1, f entry.1 entry.2⟩ : Sigma fun _ : K => W)).keys =
          table.entries.keys := by
      simp [List.keys]
    rw [List.NodupKeys, keysKept]
    exact table.nodupKeys

theorem mapVals_mapVals
    {X : Type}
    (f : K → V → W)
    (g : K → W → X)
    (table : UnorderedMap K V) :
    (table.mapVals f).mapVals g = table.mapVals fun key value => g key (f key value) := by
  apply AList.ext
  simp [mapVals]

variable [DecidableEq K]

private theorem dlookup_cons_other
    {key head : K}
    (value : V)
    (rest : List (Sigma fun _ : K => V))
    (different : key ≠ head) :
    List.dlookup key (⟨head, value⟩ :: rest) = List.dlookup key rest :=
  List.dlookup_cons_ne rest ⟨head, value⟩ different

/-- Looking up a key after mapping is mapping the value that was there. -/
@[simp] theorem lookup_mapVals
    (f : K → V → W)
    (table : UnorderedMap K V)
    (key : K) :
    (table.mapVals f).lookup key = (table.lookup key).map (f key) := by
  obtain ⟨entries, distinct⟩ := table
  simp only [AList.lookup, mapVals]
  clear distinct
  induction entries with
  | nil => rfl
  | cons entry rest inductionHypothesis =>
      obtain ⟨head, value⟩ := entry
      by_cases same : key = head
      · subst same
        simp
      · rw [List.map_cons, dlookup_cons_other _ _ same,
          dlookup_cons_other _ _ same, inductionHypothesis]

/-- A traversal that produces output for one key only produces exactly that
key's output, wherever its entry stands. -/
theorem flatMap_entries_of_single_key
    (table : UnorderedMap K V)
    (key : K)
    (produce : K → V → List δ)
    (silent : ∀ other value, table.lookup other = some value →
      other ≠ key → produce other value = []) :
    table.entries.flatMap (fun entry => produce entry.1 entry.2) =
      ((table.lookup key).map (produce key)).getD [] := by
  obtain ⟨entries, distinct⟩ := table
  simp only [AList.lookup] at silent ⊢
  induction entries with
  | nil => rfl
  | cons entry rest inductionHypothesis =>
      obtain ⟨head, value⟩ := entry
      have headFresh : head ∉ rest.keys := (List.nodupKeys_cons.mp distinct).1
      have restDistinct : rest.NodupKeys := (List.nodupKeys_cons.mp distinct).2
      have restSilent : ∀ other value, rest.dlookup other = some value →
          other ≠ key → produce other value = [] := by
        intro other otherValue found different
        refine silent other otherValue ?_ different
        have otherNe : other ≠ head := by
          intro equal
          subst equal
          rw [List.dlookup_eq_none.mpr headFresh] at found
          simp at found
        rw [dlookup_cons_other _ _ otherNe, found]
      have restOutput := inductionHypothesis restDistinct restSilent
      by_cases same : key = head
      · subst same
        rw [List.dlookup_eq_none.mpr headFresh] at restOutput
        simp only [List.flatMap_cons, restOutput, List.dlookup_cons_eq]
        simp
      · have headSilent : produce head value = [] :=
          silent head value (by simp) (Ne.symm same)
        rw [dlookup_cons_other _ _ same, List.flatMap_cons,
          headSilent, restOutput, List.nil_append]

/-- Every entry of a map is what lookup returns at its key. -/
theorem lookup_of_mem_entries
    (table : UnorderedMap K V)
    {key : K}
    {value : V}
    (member : (⟨key, value⟩ : Sigma fun _ : K => V) ∈ table.entries) :
    table.lookup key = some value :=
  AList.mem_lookup_iff.mpr member

/-! ## Writing through an iterator -/

theorem mapVals_congr
    {f g : K → V → W}
    {table : UnorderedMap K V}
    (agree : ∀ key value, table.lookup key = some value → f key value = g key value) :
    table.mapVals f = table.mapVals g := by
  apply AList.ext
  apply List.map_congr_left
  intro entry member
  rw [agree entry.1 entry.2 (table.lookup_of_mem_entries member)]

theorem mapVals_self
    {f : K → V → V}
    {table : UnorderedMap K V}
    (unchanged : ∀ key value, table.lookup key = some value → f key value = value) :
    table.mapVals f = table := by
  rw [mapVals_congr unchanged]
  apply AList.ext
  simp [mapVals]

/-- Rewrite the value at one key where it stands. -/
def adjust
    (table : UnorderedMap K V)
    (key : K)
    (f : V → V) : UnorderedMap K V :=
  table.mapVals fun other value => if other = key then f value else value

theorem lookup_adjust
    (table : UnorderedMap K V)
    (key : K)
    (f : V → V)
    (other : K) :
    (table.adjust key f).lookup other =
      (table.lookup other).map fun value => if other = key then f value else value :=
  lookup_mapVals _ _ _

/-- Rewriting a value that has just been stored is storing another one. -/
theorem adjust_insert
    (table : UnorderedMap K V)
    (key : K)
    (value : V)
    (f : V → V) :
    adjust (table.insert key value) key f = table.insert key (f value) := by
  have elsewhere : ∀ entry ∈ List.kerase key table.entries,
      (⟨entry.1, if entry.1 = key then f entry.2 else entry.2⟩ :
        Sigma fun _ : K => V) = entry := by
    intro entry member
    have different : entry.1 ≠ key := by
      intro same
      have present := List.mem_keys_of_mem member
      rw [same] at present
      exact List.notMem_keys_kerase key table.nodupKeys present
    rw [if_neg different]
  apply AList.ext
  simp only [adjust, mapVals, AList.entries_insert, List.map_cons, if_true]
  rw [List.map_congr_left elsewhere, List.map_id']

end UnorderedMap
end TaifexResolver
