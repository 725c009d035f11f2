import CardGuru.Firebase.TreeEnumerator

/-! Immutable sorted dictionaries: small ones keep their keys and values in arrays, larger ones in a search
tree. The keys of the model are the places that the comparator gives to keys. -/

namespace CardGuru

/-- The number of entries from which on an array is replaced by a tree. -/
def SORTED_DICTIONARY_ARRAY_TO_RB_TREE_SIZE_THRESHOLD : ℕ := 25

/-- A dictionary that keeps its keys in order, with the values at the same positions. -/
structure ArraySortedDictionary (K V : Type*) where
  keys : List K
  values : List V

/-- A sorted dictionary in one of its two forms. -/
inductive ImmutableSortedDictionary (K V : Type*) where
  | array (dictionary : ArraySortedDictionary K V)
  | tree (dictionary : TreeSortedDictionary K V)

/-- The position of an enumerator of an array, and its direction. -/
structure ArraySortedDictionaryEnumerator (K : Type*) where
  keys : List K
  pos : ℤ
  reverse : Bool

/-- The key at the position, and the enumerator after it. -/
def ArraySortedDictionaryEnumerator.nextObject {K : Type*} (enumerator : ArraySortedDictionaryEnumerator K) :
    Option K × ArraySortedDictionaryEnumerator K :=
  -- A reverse enumerator ends at -1.
  if 0 ≤ enumerator.pos ∧ enumerator.pos < enumerator.keys.length then
    (enumerator.keys[enumerator.pos.toNat]?,
      { enumerator with pos := if enumerator.reverse then enumerator.pos - 1 else enumerator.pos + 1 })
  else (none, enumerator)

/-! ### Arrays -/

namespace ArraySortedDictionary

variable {K V : Type*}

/-- A dictionary without entries. -/
def empty : ArraySortedDictionary K V := ⟨[], []⟩

/-- The number of entries. -/
def count (dictionary : ArraySortedDictionary K V) : ℕ :=
  dictionary.keys.length

variable [LinearOrder K]

/-- The entries of an unsorted dictionary. -/
def fromDictionary (dictionary : List (K × V)) :
    Except SortedDictionaryFault (ArraySortedDictionary K V) := do
  -- The sort raises on two keys that the comparator calls the same.
  let sorted ← TreeSortedDictionary.sortedEntries dictionary
  return ⟨sorted.map Prod.fst, sorted.map Prod.snd⟩

/-- The position where a key is or belongs. -/
def findInsertPositionForKey (keys : List K) (key : K) : ℕ :=
  keys.findIdx fun other => !decide (other < key)

/-- The position of a key, looked for until a greater key. -/
def findKey (key : K) : List K → Option ℕ
  | [] => none
  | other :: keys =>
    if key = other then some 0
    -- The keys are in order, so the search may stop.
    else if key < other then none
    else (findKey key keys).map (· + 1)

/-- A copy with a value stored under a key; an array that is full becomes a tree. -/
def insertKey (dictionary : ArraySortedDictionary K V) (key : K) (stored : V) :
    Except SortedDictionaryFault (ImmutableSortedDictionary K V) :=
  match findKey key dictionary.keys with
  | none =>
    if SORTED_DICTIONARY_ARRAY_TO_RB_TREE_SIZE_THRESHOLD ≤ dictionary.count then do
      -- All entries go to an unsorted dictionary, where the key has one value.
      let dict := Entries.drop key (dictionary.keys.zip dictionary.values) ++ [(key, stored)]
      return .tree (← TreeSortedDictionary.fromDictionary dict)
    else
      let newPos := findInsertPositionForKey dictionary.keys key
      return .array ⟨dictionary.keys.insertIdx newPos key, dictionary.values.insertIdx newPos stored⟩
  | some pos => return .array ⟨dictionary.keys.set pos key, dictionary.values.set pos stored⟩

/-- A copy without a key. -/
def removeKey (dictionary : ArraySortedDictionary K V) (key : K) : ArraySortedDictionary K V :=
  match findKey key dictionary.keys with
  -- The same dictionary is returned.
  | none => dictionary
  | some pos => ⟨dictionary.keys.eraseIdx pos, dictionary.values.eraseIdx pos⟩

/-- What is stored under a key. -/
def get (dictionary : ArraySortedDictionary K V) (key : K) : Option V :=
  (findKey key dictionary.keys).bind fun pos => dictionary.values[pos]?

/-- Whether something is stored under a key. -/
def contains (dictionary : ArraySortedDictionary K V) (key : K) : Bool :=
  (findKey key dictionary.keys).isSome

/-- The greatest key below a given one. -/
def getPredecessorKey (dictionary : ArraySortedDictionary K V) (key : K) :
    Except SortedDictionaryFault (Option K) :=
  match findKey key dictionary.keys with
  -- The source raises for a key that is not there.
  | none => .error .arrayNonexistentKey
  | some 0 => .ok none
  | some (pos + 1) => .ok dictionary.keys[pos]?

/-- The enumerator of the keys in a direction, from a start key on. -/
def start (dictionary : ArraySortedDictionary K V) (startKey : Option K) (isReverse : Bool) :
    ArraySortedDictionaryEnumerator K where
  keys := dictionary.keys
  pos := match startKey with
    | none => if isReverse then (dictionary.keys.length : ℤ) - 1 else 0
    | some startKey =>
      let startPos := findInsertPositionForKey dictionary.keys startKey
      -- Without an exact match the position is after the closest key below.
      if isReverse && !decide (dictionary.keys[startPos]? = some startKey) then (startPos : ℤ) - 1 else startPos
  reverse := isReverse

end ArraySortedDictionary

/-! ### Both forms -/

namespace ImmutableSortedDictionary

variable {K V : Type*}

/-- A dictionary without entries. -/
def dictionaryWithComparator : ImmutableSortedDictionary K V :=
  .array .empty

/-- The number of entries. -/
def count : ImmutableSortedDictionary K V → ℕ
  | array dictionary => dictionary.count
  | tree dictionary => dictionary.root.count

/-- Whether there is no entry. -/
def isEmpty : ImmutableSortedDictionary K V → Bool
  | array dictionary => dictionary.keys.isEmpty
  | tree dictionary => dictionary.root.isEmpty

/-- The smallest key. -/
def minKey : ImmutableSortedDictionary K V → Option K
  | array dictionary => dictionary.keys.head?
  | tree dictionary => dictionary.root.min.map Prod.fst

/-- The greatest key. -/
def maxKey : ImmutableSortedDictionary K V → Option K
  | array dictionary => dictionary.keys.getLast?
  | tree dictionary => dictionary.root.maxKey

/-- The keys and values that are passed to a block, one after the other. -/
def enumerateKeysAndObjectsReverse (reverse : Bool) : ImmutableSortedDictionary K V → List (K × V)
  | array dictionary =>
    -- Position by position.
    let entries := dictionary.keys.zip dictionary.values
    if reverse then entries.reverse else entries
  | tree dictionary => if reverse then dictionary.root.reverseOrder else dictionary.root.inorder

variable [LinearOrder K]

/-- A dictionary with the entries of an unsorted one. -/
def fromDictionary (dictionary : List (K × V)) :
    Except SortedDictionaryFault (ImmutableSortedDictionary K V) := do
  -- The form is chosen by the number of entries.
  if dictionary.length ≤ SORTED_DICTIONARY_ARRAY_TO_RB_TREE_SIZE_THRESHOLD then
    return .array (← ArraySortedDictionary.fromDictionary dictionary)
  else
    return .tree (← TreeSortedDictionary.fromDictionary dictionary)

/-- A copy with a value stored under a key. -/
def insertKey (key : K) (stored : V) :
    ImmutableSortedDictionary K V → Except SortedDictionaryFault (ImmutableSortedDictionary K V)
  -- An array that is full answers with a tree.
  | array dictionary => dictionary.insertKey key stored
  | tree dictionary => .ok (.tree (dictionary.insertKey key stored))

/-- A copy without a key. -/
def removeKey (key : K) : ImmutableSortedDictionary K V → ImmutableSortedDictionary K V
  | array dictionary => .array (dictionary.removeKey key)
  | tree dictionary => .tree (dictionary.removeKey key)

/-- What is stored under a key. -/
def get (key : K) : ImmutableSortedDictionary K V → Option V
  | array dictionary => dictionary.get key
  | tree dictionary => dictionary.get key

/-- Whether something is stored under a key. -/
def contains (key : K) : ImmutableSortedDictionary K V → Bool
  | array dictionary => dictionary.contains key
  | tree dictionary => dictionary.contains key

/-- The greatest key below a given one. -/
def getPredecessorKey (key : K) : ImmutableSortedDictionary K V → Except SortedDictionaryFault (Option K)
  | array dictionary => dictionary.getPredecessorKey key
  | tree dictionary => dictionary.getPredecessorKey key

/-- At most so many keys of an enumerator in a direction, from a start key on. -/
def nextObjects (startKey : Option K) (isReverse : Bool) (limit : ℕ) : ImmutableSortedDictionary K V → List K
  | array dictionary =>
    Enumerate.objects ArraySortedDictionaryEnumerator.nextObject limit (dictionary.start startKey isReverse)
  -- A tree is walked with a stack of nodes.
  | tree dictionary =>
    Enumerate.objects TreeSortedDictionaryEnumerator.nextObject limit (.start dictionary startKey isReverse)

end ImmutableSortedDictionary

end CardGuru
