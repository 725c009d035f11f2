import Mathlib.Order.Lattice
import Mathlib.Data.List.Basic
import Mathlib.Data.List.Pairwise

/-! Association lists kept in strictly increasing key order. -/

namespace Entries

variable {K V W : Type*} [LinearOrder K]

/-- Keys strictly increase along the list, so no key occurs twice. -/
def Sorted (entries : List (K × V)) : Prop :=
  -- Every earlier key is strictly below every later one.
  entries.Pairwise fun earlier later => earlier.1 < later.1

/-- Store a value under a key, at the position its key takes in the order. -/
def put (key : K) (value : V) : List (K × V) → List (K × V)
  -- A key above all others goes to the end.
  | [] => [(key, value)]
  | entry :: rest =>
    if key < entry.1 then (key, value) :: entry :: rest
    -- A stored key keeps its position and changes only its value.
    else if entry.1 = key then (key, value) :: rest
    else entry :: put key value rest

/-- Remove the value under a key, leaving every other entry in place. -/
def drop (key : K) (entries : List (K × V)) : List (K × V) :=
  -- Absent keys leave the list unchanged.
  entries.filter fun entry => entry.1 ≠ key

/-- Reading the key just stored gives its value. -/
@[simp] theorem lookup_put_self (key : K) (value : V) (entries : List (K × V)) :
    (put key value entries).lookup key = some value := by
  -- Entries passed over on the way carry other keys.
  induction entries with
  | nil => simp [put]
  | cons entry rest ih =>
    simp only [put]
    split
    · simp
    · split
      · simp
      · rename_i other
        rw [List.lookup_cons, beq_eq_false_iff_ne.mpr (Ne.symm other)]
        exact ih

/-- Storing under one key does not change what another key reads. -/
theorem lookup_put_ne {key other : K} (different : other ≠ key) (value : V)
    (entries : List (K × V)) : (put key value entries).lookup other = entries.lookup other := by
  -- The new entry is skipped, and at most an entry of the written key disappears.
  induction entries with
  | nil => simp [put, different]
  | cons entry rest ih =>
    obtain ⟨stored, old⟩ := entry
    simp only [put]
    split
    · rw [List.lookup_cons, beq_eq_false_iff_ne.mpr different]
    · split
      · rename_i same
        subst same
        rw [List.lookup_cons, List.lookup_cons, beq_eq_false_iff_ne.mpr different]
      · rw [List.lookup_cons, List.lookup_cons, ih]

/-- A removed key reads nothing. -/
@[simp] theorem lookup_drop_self (key : K) (entries : List (K × V)) :
    (drop key entries).lookup key = none := by
  -- No surviving entry carries the removed key.
  rw [List.lookup_eq_none_iff]
  intro entry member
  have survived : entry.1 ≠ key := by simpa using (List.mem_filter.mp member).2
  exact bne_iff_ne.mpr survived.symm

/-- Removing one key does not change what another key reads. -/
theorem lookup_drop_ne {key other : K} (different : other ≠ key) (entries : List (K × V)) :
    (drop key entries).lookup other = entries.lookup other := by
  -- Only entries of the removed key are filtered out.
  induction entries with
  | nil => rfl
  | cons entry rest ih =>
    obtain ⟨stored, old⟩ := entry
    by_cases same : stored = key
    · subst same
      rw [List.lookup_cons, beq_eq_false_iff_ne.mpr different]
      simpa [drop] using ih
    · have kept : drop key ((stored, old) :: rest) = (stored, old) :: drop key rest := by
        simp [drop, same]
      rw [kept, List.lookup_cons, List.lookup_cons, ih]

/-- Keys of a list after a store are the old keys and the stored one. -/
theorem mem_put_keys {key : K} {value : V} {entries : List (K × V)} {entry : K × V}
    (member : entry ∈ put key value entries) : entry = (key, value) ∨ entry ∈ entries := by
  -- Each branch keeps entries of the original list and adds only the new pair.
  induction entries with
  | nil => simpa [put] using member
  | cons head rest ih =>
    simp only [put] at member
    split at member
    · simpa using member
    · split at member
      · rcases List.mem_cons.mp member with same | member
        · exact .inl same
        · exact .inr (List.mem_cons_of_mem _ member)
      · rcases List.mem_cons.mp member with same | member
        · exact .inr (same ▸ List.mem_cons_self)
        · rcases ih member with same | member
          · exact .inl same
          · exact .inr (List.mem_cons_of_mem _ member)

/-- Storing keeps the keys in strictly increasing order. -/
theorem Sorted.put {entries : List (K × V)} (sorted : Sorted entries) (key : K) (value : V) :
    Sorted (put key value entries) := by
  -- The new entry stops exactly at the first key that is not below it.
  induction entries with
  | nil => simp [Entries.put, Sorted]
  | cons head rest ih =>
    obtain ⟨below, tail⟩ := List.pairwise_cons.mp sorted
    simp only [Entries.put]
    split
    · rename_i before
      refine List.pairwise_cons.mpr ⟨?_, sorted⟩
      intro entry member
      rcases List.mem_cons.mp member with rfl | member
      · exact before
      · exact before.trans (below entry member)
    · rename_i notBefore
      split
      · rename_i same
        exact List.pairwise_cons.mpr ⟨fun entry member => same ▸ below entry member, tail⟩
      · rename_i different
        refine List.pairwise_cons.mpr ⟨?_, ih tail⟩
        intro entry member
        rcases mem_put_keys member with rfl | member
        · exact lt_of_le_of_ne (not_lt.mp notBefore) different
        · exact below entry member

/-- Removing keeps the keys in strictly increasing order. -/
theorem Sorted.drop {entries : List (K × V)} (sorted : Sorted entries) (key : K) :
    Sorted (drop key entries) :=
  -- A sublist of an ordered list is ordered.
  sorted.filter _

/-- In a sorted list a member is what its key reads. -/
theorem Sorted.lookup_of_mem {entries : List (K × V)} (sorted : Sorted entries) {key : K} {value : V}
    (member : (key, value) ∈ entries) : entries.lookup key = some value := by
  -- Earlier entries have smaller keys, so the search reaches the member itself.
  induction entries with
  | nil => simp at member
  | cons head rest ih =>
    obtain ⟨below, tail⟩ := List.pairwise_cons.mp sorted
    obtain ⟨stored, old⟩ := head
    rcases List.mem_cons.mp member with same | later
    · cases same
      simp
    · have larger : stored < key := below (key, value) later
      rw [List.lookup_cons, beq_eq_false_iff_ne.mpr larger.ne']
      exact ih tail later

/-- Removing the first key of an ordered list leaves the rest. -/
theorem Sorted.drop_cons {key : K} {value : V} {rest : List (K × V)}
    (sorted : Sorted ((key, value) :: rest)) : Entries.drop key ((key, value) :: rest) = rest := by
  -- All later keys are larger.
  obtain ⟨larger, _⟩ := List.pairwise_cons.mp sorted
  rw [Entries.drop, List.filter_cons_of_neg (by simp), List.filter_eq_self]
  intro entry member
  simpa using (larger entry member).ne'

/-- Removing treats both parts of a list alike. -/
theorem drop_append (key : K) (earlier later : List (K × V)) :
    drop key (earlier ++ later) = drop key earlier ++ drop key later :=
  List.filter_append earlier later

/-- Removing a key that is not there changes nothing. -/
theorem drop_of_absent {key : K} {entries : List (K × V)} (absent : ∀ entry ∈ entries, entry.1 ≠ key) :
    drop key entries = entries := by
  -- Every entry passes the filter.
  rw [drop, List.filter_eq_self]
  exact fun entry member => by simpa using absent entry member

/-- Storing under a new key adds one entry. -/
theorem put_perm_of_absent {key : K} {entries : List (K × V)} (value : V)
    (absent : ∀ entry ∈ entries, entry.1 ≠ key) : (put key value entries).Perm ((key, value) :: entries) := by
  induction entries with
  | nil => exact List.Perm.refl _
  | cons entry rest ih =>
    rw [put, if_neg (absent entry List.mem_cons_self)]
    split
    · exact List.Perm.refl _
    · -- The new entry moves past those with smaller keys.
      exact ((ih fun other member => absent other (List.mem_cons_of_mem _ member)).cons entry).trans
        (List.Perm.swap (key, value) entry rest)

/-- A key below the later ones is stored among the earlier ones. -/
theorem put_append_left {key : K} {earlier later : List (K × V)} (value : V)
    (below : ∀ entry ∈ later, key < entry.1) (something : later ≠ []) :
    put key value (earlier ++ later) = put key value earlier ++ later := by
  induction earlier with
  | nil =>
    -- The first of the later keys is larger.
    obtain ⟨entry, rest, rfl⟩ := List.exists_cons_of_ne_nil something
    simp [put, below entry List.mem_cons_self]
  | cons entry earlier ih =>
    simp only [List.cons_append, put, ih]
    split
    · rfl
    · split <;> rfl

/-- A key above the earlier ones is stored among the later ones. -/
theorem put_append_right {key : K} {earlier later : List (K × V)} (value : V)
    (above : ∀ entry ∈ earlier, entry.1 < key) :
    put key value (earlier ++ later) = earlier ++ put key value later := by
  induction earlier with
  | nil => rfl
  | cons entry earlier ih =>
    -- The first entry stays in front.
    have less := above entry List.mem_cons_self
    rw [List.cons_append, put, if_neg less.not_gt, if_neg less.ne,
      ih fun other member => above other (List.mem_cons_of_mem _ member), List.cons_append]

/-- Reading a key below the later ones looks at the earlier ones only. -/
theorem lookup_append_left {key : K} {earlier later : List (K × V)} (below : ∀ entry ∈ later, key < entry.1) :
    (earlier ++ later).lookup key = earlier.lookup key := by
  -- The later entries have other keys.
  have absent : later.lookup key = none :=
    List.lookup_eq_none_iff.mpr fun entry member => bne_iff_ne.mpr (below entry member).ne
  rw [List.lookup_append, absent, Option.or_none]

/-- Reading a key above the earlier ones looks at the later ones only. -/
theorem lookup_append_right {key : K} {earlier later : List (K × V)} (above : ∀ entry ∈ earlier, entry.1 < key) :
    (earlier ++ later).lookup key = later.lookup key := by
  -- The earlier entries have other keys.
  have absent : earlier.lookup key = none :=
    List.lookup_eq_none_iff.mpr fun entry member => bne_iff_ne.mpr (above entry member).ne'
  rw [List.lookup_append, absent, Option.none_or]

/-- A larger key goes to the end of an ordered list. -/
theorem Sorted.concat {entries : List (K × V)} (sorted : Sorted entries) {key : K}
    (larger : ∀ entry ∈ entries, entry.1 < key) (value : V) : Sorted (entries ++ [(key, value)]) := by
  -- Nothing comes after it.
  refine List.pairwise_append.mpr ⟨sorted, List.pairwise_singleton _ _, ?_⟩
  intro entry member last new
  rw [List.mem_singleton.mp new]
  exact larger entry member

/-- What a key reads is a member of the list. -/
theorem mem_of_lookup {entries : List (K × V)} {key : K} {value : V}
    (found : entries.lookup key = some value) : (key, value) ∈ entries := by
  -- The search returns the value of an entry carrying the requested key.
  obtain ⟨before, after, rfl, _⟩ := List.lookup_eq_some_iff.mp found
  simp

/-- Storing under a present key rewrites that entry in place. -/
theorem Sorted.put_of_lookup {entries : List (K × V)} (sorted : Sorted entries) {key : K} {old : V}
    (found : entries.lookup key = some old) (value : V) :
    Entries.put key value entries =
      entries.map fun entry => if entry.1 = key then (key, value) else entry := by
  -- The key cannot belong before an entry that precedes its own position.
  induction entries with
  | nil => simp at found
  | cons head rest ih =>
    obtain ⟨below, tail⟩ := List.pairwise_cons.mp sorted
    obtain ⟨stored, kept⟩ := head
    by_cases same : stored = key
    · subst same
      -- All later keys are larger, so the rest of the map changes nothing.
      have rest_eq : rest.map (fun entry => if entry.1 = stored then (stored, value) else entry)
          = rest := by
        conv_rhs => rw [← List.map_id rest]
        refine List.map_congr_left fun entry member => ?_
        have larger : stored < entry.1 := below entry member
        simp [larger.ne']
      simp [Entries.put, rest_eq]
    · rw [List.lookup_cons, beq_eq_false_iff_ne.mpr (Ne.symm same)] at found
      have above : stored < key := below _ (mem_of_lookup found)
      simp [Entries.put, same, above.not_gt, ih tail found]

/-- Ordered lists with the same members are the same list. -/
theorem Sorted.ext {first second : List (K × V)} (firstSorted : Sorted first)
    (secondSorted : Sorted second) (members : ∀ entry, entry ∈ first ↔ entry ∈ second) :
    first = second := by
  -- A strict order leaves no room for repetitions or for two orders of the same members.
  have once : ∀ {entries : List (K × V)}, Sorted entries → entries.Nodup := by
    intro entries sorted
    refine sorted.imp ?_
    intro earlier later before same
    rw [same] at before
    exact before.false
  have permuted : first.Perm second :=
    (List.perm_ext_iff_of_nodup (once firstSorted) (once secondSorted)).mpr members
  refine permuted.eq_of_pairwise ?_ firstSorted secondSorted
  intro earlier later _ _ before after
  exact absurd after before.asymm

section SameKeys

variable {first : List (K × V)} {second : List (K × W)}

/-- With the same keys, either both lists have an entry under a key or none of them has. -/
theorem lookup_of_keys (keys : first.map Prod.fst = second.map Prod.fst) (key : K) :
    (first.lookup key = none ∧ second.lookup key = none) ∨
      ∃ value other, first.lookup key = some value ∧ second.lookup key = some other := by
  induction first generalizing second with
  | nil =>
    cases second with
    | nil => exact .inl ⟨rfl, rfl⟩
    | cons entry second => cases keys
  | cons entry first ih =>
    cases second with
    | nil => cases keys
    | cons other second =>
      obtain ⟨same, rest⟩ := List.cons.inj keys
      rw [List.lookup_cons, List.lookup_cons, ← same]
      -- The first entries have the same key, so they are found together.
      cases key == entry.1 with
      | true => exact .inr ⟨entry.2, other.2, rfl, rfl⟩
      | false => exact ih rest

/-- Storing under a key gives lists with the same keys the same keys. -/
theorem put_keys (keys : first.map Prod.fst = second.map Prod.fst) (key : K) (value : V) (other : W) :
    (put key value first).map Prod.fst = (put key other second).map Prod.fst := by
  induction first generalizing second with
  | nil =>
    cases second with
    | nil => rfl
    | cons entry second => cases keys
  | cons entry first ih =>
    cases second with
    | nil => cases keys
    | cons next second =>
      obtain ⟨same, rest⟩ := List.cons.inj keys
      rw [put, put, same]
      -- Both lists take the same branch.
      split
      · simp [same, rest]
      · split
        · simp [rest]
        · simp [same, ih rest]

/-- The keys that are left when one is removed. -/
theorem map_fst_drop (key : K) (entries : List (K × V)) :
    (drop key entries).map Prod.fst = (entries.map Prod.fst).filter (· ≠ key) := by
  -- The filter looks at the key only.
  rw [List.filter_map]
  rfl

end SameKeys

section Decoding

variable {decode : K × V → Option W} {entries : List (K × V)} {key : K}

/-- What is decoded from a list in which one present key gets a new value. -/
theorem Sorted.filterMap_put_of_lookup (sorted : Sorted entries) {old : V}
    (found : entries.lookup key = some old) {value : V} {change : W → W}
    (decoded : decode (key, value) = (decode (key, old)).map change) :
    (Entries.put key value entries).filterMap decode =
      entries.filterMap fun entry =>
        if entry.1 = key then (decode entry).map change else decode entry := by
  -- The entry keeps its position, and its old value is the one that is read.
  rw [sorted.put_of_lookup found value, List.filterMap_map]
  refine List.filterMap_congr fun entry member => ?_
  obtain ⟨stored, kept⟩ := entry
  by_cases same : stored = key
  · subst same
    have reads := sorted.lookup_of_mem member
    rw [found] at reads
    cases reads
    simp [decoded]
  · simp [same]

/-- A value stored under a new key is decoded last if no later key decodes. -/
theorem Sorted.filterMap_put_of_absent (sorted : Sorted entries)
    (absent : entries.lookup key = none) (value : V)
    (later : ∀ entry ∈ entries, key < entry.1 → decode entry = none) :
    (Entries.put key value entries).filterMap decode =
      entries.filterMap decode ++ (decode (key, value)).toList := by
  induction entries with
  | nil => cases made : decode (key, value) <;> simp [Entries.put, made]
  | cons head rest ih =>
    obtain ⟨below, tail⟩ := List.pairwise_cons.mp sorted
    obtain ⟨stored, kept⟩ := head
    by_cases before : key < stored
    · -- Everything from here on has a larger key.
      have nothing : ((stored, kept) :: rest).filterMap decode = [] := by
        rw [List.filterMap_eq_nil_iff]
        intro entry member
        refine later entry member ?_
        rcases List.mem_cons.mp member with rfl | inside
        · exact before
        · exact before.trans (below entry inside)
      simp only [Entries.put, before, if_true]
      rw [List.filterMap_cons, nothing]
      cases decode (key, value) <;> simp
    · -- Nothing is stored under the key, so it is not this one.
      have different : stored ≠ key := by
        rintro rfl
        simp at absent
      rw [List.lookup_cons, beq_eq_false_iff_ne.mpr (Ne.symm different)] at absent
      have rest_eq := ih tail absent fun entry member =>
        later entry (List.mem_cons_of_mem _ member)
      simp only [Entries.put, before, different, if_false, List.filterMap_cons, rest_eq]
      cases decode (stored, kept) <;> simp

end Decoding

end Entries
