import CardGuru.Firebase.DictionaryWalks
import CardGuru.Firebase.Key
import Mathlib.Logic.Function.Basic

/-! After any sequence of operations a sorted dictionary is the map that these operations describe. Keys
are taken up to the comparator: two that it calls the same have one place, and are one key. -/

namespace CardGuru

variable {N K V : Type*} [LinearOrder K]

/-- An operation that makes a new dictionary out of another one. -/
inductive DictionaryOperation (K V : Type*) where
  | insertKey (key : K) (stored : V)
  | removeKey (key : K)

namespace DictionaryOperation

/-- Perform an operation. -/
def perform (dictionary : ImmutableSortedDictionary K V) :
    DictionaryOperation K V → Except SortedDictionaryFault (ImmutableSortedDictionary K V)
  | insertKey key stored => dictionary.insertKey key stored
  -- A removal raises nothing in either form.
  | removeKey key => .ok (dictionary.removeKey key)

/-- Perform operations one after the other. -/
def performAll (dictionary : ImmutableSortedDictionary K V) :
    List (DictionaryOperation K V) → Except SortedDictionaryFault (ImmutableSortedDictionary K V)
  | [] => .ok dictionary
  | operation :: operations => do
    -- The first operation that raises ends the run.
    let after ← operation.perform dictionary
    performAll after operations

/-- The operation at the place of its key. -/
def placed (place : N → K) : DictionaryOperation N V → DictionaryOperation K V
  | insertKey key stored => insertKey (place key) stored
  | removeKey key => removeKey (place key)

/-- What an operation makes of a map from keys to values. -/
def effect (map : K → Option V) : DictionaryOperation K V → K → Option V
  | insertKey key stored => Function.update map key (some stored)
  | removeKey key => Function.update map key none

end DictionaryOperation

namespace ImmutableSortedDictionary

/-- Every question to a dictionary has the answer that a map from keys to values gives. -/
structure Represents (map : K → Option V) (dictionary : ImmutableSortedDictionary K V) : Prop where
  get : ∀ key, dictionary.get key = map key
  contains : ∀ key, dictionary.contains key = (map key).isSome
  ascending : (dictionary.enumerateKeysAndObjectsReverse false).Pairwise fun earlier later => earlier.1 < later.1
  visited : ∀ key stored, (key, stored) ∈ dictionary.enumerateKeysAndObjectsReverse false ↔ map key = some stored
  descending : dictionary.enumerateKeysAndObjectsReverse true =
    (dictionary.enumerateKeysAndObjectsReverse false).reverse
  count : dictionary.count = (dictionary.enumerateKeysAndObjectsReverse false).length
  isEmpty : dictionary.isEmpty = (dictionary.enumerateKeysAndObjectsReverse false).isEmpty
  minKey : dictionary.minKey = (dictionary.enumerateKeysAndObjectsReverse false).head?.map Prod.fst
  maxKey : dictionary.maxKey = (dictionary.enumerateKeysAndObjectsReverse false).getLast?.map Prod.fst

/-- A well-formed dictionary represents the map of its entries. -/
theorem WellFormed.represents {dictionary : ImmutableSortedDictionary K V} (wellFormed : WellFormed dictionary) :
    Represents (fun key => dictionary.contents.lookup key) dictionary where
  -- Each question is answered from the entries alone.
  get := wellFormed.get
  contains := wellFormed.contains
  ascending := wellFormed.sorted
  visited := fun _ _ =>
    ⟨fun member => wellFormed.sorted.lookup_of_mem member, fun found => Entries.mem_of_lookup found⟩
  descending := dictionary.enumerate_reverse
  count := wellFormed.count
  isEmpty := wellFormed.isEmpty
  minKey := wellFormed.minKey
  maxKey := wellFormed.maxKey

/-- An operation raises nothing, and has its effect on the map. -/
theorem WellFormed.perform {dictionary : ImmutableSortedDictionary K V} (wellFormed : WellFormed dictionary)
    (operation : DictionaryOperation K V) :
    ∃ after, operation.perform dictionary = .ok after ∧ WellFormed after ∧
      (fun key => after.contents.lookup key) = operation.effect fun key => dictionary.contents.lookup key := by
  cases operation with
  | insertKey key stored =>
    obtain ⟨after, inserted, kept, contents⟩ := wellFormed.insertKey key stored
    refine ⟨after, inserted, kept, funext fun other => ?_⟩
    rw [contents, DictionaryOperation.effect]
    -- The map changes at the key of the operation only.
    by_cases same : other = key
    · subst same
      rw [Function.update_self, Entries.lookup_put_self]
    · rw [Function.update_of_ne same, Entries.lookup_put_ne same]
  | removeKey key =>
    obtain ⟨kept, contents⟩ := wellFormed.removeKey key
    refine ⟨dictionary.removeKey key, rfl, kept, funext fun other => ?_⟩
    rw [contents, DictionaryOperation.effect]
    by_cases same : other = key
    · subst same
      rw [Function.update_self, Entries.lookup_drop_self]
    · rw [Function.update_of_ne same, Entries.lookup_drop_ne same]

/-- Operations raise nothing, and have their effects on the map one after the other. -/
theorem WellFormed.performAll {dictionary : ImmutableSortedDictionary K V} (wellFormed : WellFormed dictionary)
    (operations : List (DictionaryOperation K V)) :
    ∃ after, DictionaryOperation.performAll dictionary operations = .ok after ∧ WellFormed after ∧
      (fun key => after.contents.lookup key) =
        operations.foldl DictionaryOperation.effect fun key => dictionary.contents.lookup key := by
  -- By induction over the operations, each on a well-formed dictionary.
  induction operations generalizing dictionary with
  | nil => exact ⟨dictionary, rfl, wellFormed, rfl⟩
  | cons operation operations ih =>
    obtain ⟨next, performed, kept, effect⟩ := wellFormed.perform operation
    obtain ⟨after, run, final, effects⟩ := ih kept
    refine ⟨after, ?_, final, ?_⟩
    · rw [DictionaryOperation.performAll, performed]
      exact run
    · rw [effects, effect, List.foldl_cons]

/-- The values of an unsorted dictionary do not depend on the order of its entries. -/
theorem lookup_perm {first second : List (K × V)} (permuted : first.Perm second)
    (distinct : TreeSortedDictionary.DistinctKeys second) (key : K) : first.lookup key = second.lookup key := by
  induction permuted with
  | nil => rfl
  | cons entry _ ih =>
    have rest := (List.nodup_cons.mp distinct).2
    rw [List.lookup_cons, List.lookup_cons, ih rest]
  | swap earlier later rest =>
    -- The two keys differ, so at most one of them is the key in question.
    have different : earlier.1 ≠ later.1 := by
      intro same
      refine (List.nodup_cons.mp distinct).1 ?_
      simp [same]
    rw [List.lookup_cons, List.lookup_cons, List.lookup_cons, List.lookup_cons]
    by_cases first : key = earlier.1
    · have notLater : key ≠ later.1 := fun second => different (first.symm.trans second)
      rw [beq_eq_false_iff_ne.mpr notLater]
    · rw [beq_eq_false_iff_ne.mpr first]
  | trans before after firstIh secondIh =>
    have middle := (after.map Prod.fst).nodup_iff.mpr distinct
    rw [firstIh middle, secondIh distinct]

/-- A new dictionary with the entries of an unsorted one, after some operations. -/
def run (entries : List (K × V)) (operations : List (DictionaryOperation K V)) :
    Except SortedDictionaryFault (ImmutableSortedDictionary K V) := do
  -- Only this step can raise.
  let made ← fromDictionary entries
  DictionaryOperation.performAll made operations

/-- What a run from an unsorted dictionary leaves. -/
theorem run_wellFormed {entries : List (K × V)} (distinct : TreeSortedDictionary.DistinctKeys entries)
    (operations : List (DictionaryOperation K V)) :
    ∃ after, run entries operations = .ok after ∧
      WellFormed after ∧
      (fun key => after.contents.lookup key) =
        operations.foldl DictionaryOperation.effect fun key => entries.lookup key := by
  obtain ⟨made, built, wellFormed, permuted⟩ := fromDictionary_spec distinct
  obtain ⟨after, performed, final, effects⟩ := wellFormed.performAll operations
  refine ⟨after, ?_, final, ?_⟩
  · rw [run, built]
    exact performed
  · rw [effects]
    -- The order of the unsorted entries does not matter to the map.
    congr 1
    exact funext fun key => lookup_perm permuted distinct key

/-- The entries of an unsorted dictionary at the places of their keys. -/
def placed (place : N → K) (entries : List (N × V)) : List (K × V) :=
  entries.map fun entry => (place entry.1, entry.2)

/-- If two keys of the unsorted dictionary are the same, it is refused; otherwise nothing is raised, whatever
is inserted and removed, and the dictionary represents the map that results. -/
theorem run_represents (place : N → K) (entries : List (N × V)) (operations : List (DictionaryOperation N V)) :
    if (entries.map fun entry => place entry.1).Nodup then
      ∃ after, run (placed place entries) (operations.map (·.placed place)) = .ok after ∧
        Represents ((operations.map (·.placed place)).foldl DictionaryOperation.effect
          fun key => (placed place entries).lookup key) after
    else run (placed place entries) (operations.map (·.placed place)) = .error .sameOrdering := by
  -- The dictionary compares the places of its keys.
  have keys : (placed place entries).map Prod.fst = entries.map fun entry => place entry.1 := by
    rw [placed, List.map_map]
    rfl
  split
  · rename_i distinct
    rw [← keys] at distinct
    obtain ⟨after, done, wellFormed, effects⟩ := run_wellFormed distinct (operations.map (·.placed place))
    exact ⟨after, done, effects ▸ wellFormed.represents⟩
  · rename_i repeated
    rw [← keys] at repeated
    rw [run, fromDictionary_of_not_distinct repeated]
    rfl

/-- Among the children of a node `00` and `-0` are one key: the second replaces what the first has, and a
dictionary with both is refused. -/
theorem run_represents_zeros :
    (∃ after, run (placed keyPlace [("00", 1)]) [.insertKey (keyPlace "-0") 2] = .ok after ∧
      after.get (keyPlace "00") = some 2) ∧
      run (placed keyPlace [("00", 1), ("-0", 2)]) [] = .error .sameOrdering := by
  have replaced := run_represents keyPlace [("00", 1)] [.insertKey "-0" 2]
  have refused := run_represents keyPlace [("00", 1), ("-0", 2)] []
  -- One key is alone; two spellings of zero are not.
  rw [if_pos (by decide +kernel)] at replaced
  rw [if_neg (by decide +kernel)] at refused
  obtain ⟨after, done, represents⟩ := replaced
  exact ⟨⟨after, done, (represents.get _).trans (by decide +kernel)⟩, refused⟩

/-- More entries than an array has. -/
def numbered : List (ℕ × ℕ) :=
  (List.range 26).map fun number => (number, number)

/-- The checks of a dictionary: few entries in an array, and a balanced tree with a black root. -/
def Checked : ImmutableSortedDictionary K V → Prop
  | array dictionary => dictionary.count ≤ SORTED_DICTIONARY_ARRAY_TO_RB_TREE_SIZE_THRESHOLD
  | tree dictionary =>
    -- The three checks of `checkMaxDepth` and `check`.
    dictionary.root.isRed = false ∧ (∃ blackDepth, dictionary.root.check = .ok blackDepth) ∧
      dictionary.root.checkMaxDepth = .ok true

/-- Whatever is inserted and removed, the dictionary passes its checks. -/
theorem run_checked {entries : List (K × V)} (distinct : TreeSortedDictionary.DistinctKeys entries)
    (operations : List (DictionaryOperation K V)) :
    ∃ after, run entries operations = .ok after ∧
      Checked after := by
  obtain ⟨after, done, wellFormed, _⟩ := run_wellFormed distinct operations
  refine ⟨after, done, ?_⟩
  cases wellFormed with
  | array sorted few => exact (List.length_map _).trans_le few
  | tree balanced sorted =>
    refine ⟨balanced.isRed, ⟨_, balanced.check⟩, ?_⟩
    -- The number of black nodes bounds the depth.
    rw [LLRBNode.checkMaxDepth, balanced.check]
    exact congrArg Except.ok (decide_eq_true balanced.count_ge)

/-- A tree from which an entry is removed. -/
theorem run_checked_removed :
    ∃ after, run numbered [.removeKey 7] = .ok after ∧ Checked after :=
  run_checked (by decide) [.removeKey 7]

/-- The keys of a dictionary in order. -/
def keys (dictionary : ImmutableSortedDictionary K V) : List K :=
  (dictionary.enumerateKeysAndObjectsReverse false).map Prod.fst

/-- The keys that the reverse enumerator returns when it has no start key. -/
def keysWithoutStart : ImmutableSortedDictionary K V → List K
  | array dictionary => (array dictionary).keys.reverse
  -- The comparison that stands for the missing start key is flipped, and every key is skipped.
  | tree _ => []

/-- Enumerators return the keys from a start key on; without one, a tree returns none in the reverse direction. -/
theorem run_nextObjects {entries : List (K × V)} (distinct : TreeSortedDictionary.DistinctKeys entries)
    (operations : List (DictionaryOperation K V)) :
    ∃ after, run entries operations = .ok after ∧ ∀ limit : ℕ,
      (∀ startKey, after.nextObjects (some startKey) false limit = (after.keys.filter (startKey ≤ ·)).take limit) ∧
      (∀ startKey, after.nextObjects (some startKey) true limit =
        (after.keys.filter (· ≤ startKey)).reverse.take limit) ∧
      after.nextObjects none false limit = after.keys.take limit ∧
      after.nextObjects none true limit =
        after.keysWithoutStart.take limit := by
  obtain ⟨after, done, wellFormed, _⟩ := run_wellFormed distinct operations
  -- In all four cases the walk is the one of the invariant.
  refine ⟨after, done, fun limit => ⟨fun startKey => ?_, fun startKey => ?_, ?_, ?_⟩⟩
  · rw [wellFormed.nextObjects]
    cases after <;> rfl
  · rw [wellFormed.nextObjects]
    cases after <;> rfl
  · rw [wellFormed.nextObjects]
    cases after <;> rfl
  · rw [wellFormed.nextObjects]
    cases after <;> rfl

/-- A tree from which an entry is removed. -/
theorem run_nextObjects_removed :
    ∃ after, run numbered [.removeKey 7] = .ok after ∧ ∀ limit : ℕ,
      (∀ startKey, after.nextObjects (some startKey) false limit = (after.keys.filter (startKey ≤ ·)).take limit) ∧
      (∀ startKey, after.nextObjects (some startKey) true limit =
        (after.keys.filter (· ≤ startKey)).reverse.take limit) ∧
      after.nextObjects none false limit = after.keys.take limit ∧
      after.nextObjects none true limit =
        after.keysWithoutStart.take limit :=
  run_nextObjects (by decide) [.removeKey 7]

/-- The predecessor of a stored key is the greatest smaller one; another key has none and is refused. -/
theorem run_getPredecessorKey {entries : List (K × V)} (distinct : TreeSortedDictionary.DistinctKeys entries)
    (operations : List (DictionaryOperation K V)) :
    ∃ after, run entries operations = .ok after ∧ ∀ key,
      after.getPredecessorKey key =
        if (operations.foldl DictionaryOperation.effect (fun key => entries.lookup key) key).isSome then
          .ok (after.keys.filter (· < key)).getLast?
        else .error after.nonexistentKey := by
  obtain ⟨after, done, wellFormed, effects⟩ := run_wellFormed distinct operations
  refine ⟨after, done, fun key => ?_⟩
  -- A key is enumerated exactly if the map has a value for it.
  have present : key ∈ after.contents.map Prod.fst ↔
      (operations.foldl DictionaryOperation.effect (fun key => entries.lookup key) key).isSome = true := by
    rw [← effects]
    show _ ↔ (after.contents.lookup key).isSome = true
    rw [← wellFormed.get key]
    constructor
    · intro member
      obtain ⟨entry, inside, rfl⟩ := List.mem_map.mp member
      rw [wellFormed.get, wellFormed.sorted.lookup_of_mem inside]
      rfl
    · intro some
      obtain ⟨stored, found⟩ := Option.isSome_iff_exists.mp some
      rw [wellFormed.get] at found
      exact List.mem_map.mpr ⟨(key, stored), Entries.mem_of_lookup found, rfl⟩
  rw [wellFormed.getPredecessorKey]
  simp only [present]
  rfl

/-- A tree from which an entry is removed. -/
theorem run_getPredecessorKey_removed :
    ∃ after, run numbered [.removeKey 7] = .ok after ∧ ∀ key,
      after.getPredecessorKey key =
        if ([.removeKey 7].foldl DictionaryOperation.effect
            (fun key => numbered.lookup key) key).isSome then
          .ok (after.keys.filter (· < key)).getLast?
        else .error after.nonexistentKey :=
  run_getPredecessorKey (by decide) [.removeKey 7]

end ImmutableSortedDictionary

end CardGuru
