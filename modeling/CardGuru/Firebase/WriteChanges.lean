import Mathlib.Data.List.Nodup
import CardGuru.Firebase.Database
import CardGuru.Lib.Overwrites

/-! Write requests as changes of the values in the database. -/

namespace CardGuru

namespace DatabaseWrite

/-- The fields of a write are those of a dictionary, which has each key once. -/
def Distinct (write : DatabaseWrite) : Prop := (write.fields.map Prod.fst).Nodup

instance (write : DatabaseWrite) : Decidable write.Distinct :=
  inferInstanceAs (Decidable (List.Nodup _))

/-- The places that a write replaces, with what it stores there. -/
def overwrites : DatabaseWrite → List (Path × Node)
  -- An update replaces the listed children one by one.
  | .updateChildValues path values =>
    values.map fun field => (path ++ [field.1], field.2.elim .empty .leaf)
  | write => [(write.path, write.replacement .empty)]

/-- What a write changes, in the order of its fields. -/
def changes (write : DatabaseWrite) : List (Path → Option (Option Leaf)) :=
  write.overwrites.map Layers.change

/-- What an update stores in a field is canonical. -/
theorem canonical_field (value : Option Leaf) : (value.elim KeyTree.empty KeyTree.leaf : Node).Canonical := by
  -- A deleted field is the empty node.
  cases value with
  | none => exact KeyTree.canonical_empty
  | some leaf => exact .leaf leaf

/-- None of the places of a write lies below another one. -/
theorem overwrites_antichain {write : DatabaseWrite} (distinct : write.Distinct) :
    ∀ first ∈ write.overwrites, ∀ second ∈ write.overwrites, first.1 <+: second.1 → first = second := by
  have alone : ∀ one : Path × Node, ∀ first ∈ [one], ∀ second ∈ [one],
      first.1 <+: second.1 → first = second := by
    intro one first member second other _
    rw [List.mem_singleton.mp member, List.mem_singleton.mp other]
  cases write with
  | setValue path value => exact alone _
  | removeValue path => exact alone _
  | updateChildValues path values =>
    -- Fields with the same key are the same field.
    intro first member second other inside
    obtain ⟨field, listed, rfl⟩ := List.mem_map.mp member
    obtain ⟨another, also, rfl⟩ := List.mem_map.mp other
    have key : field.1 = another.1 := by
      simpa [List.prefix_append_right_inj, List.cons_prefix_cons] using inside
    rw [List.inj_on_of_nodup_map distinct listed also key]

end DatabaseWrite

/-- A write request whose fields are those of a dictionary. -/
abbrev UserWrite := { write : DatabaseWrite // write.Distinct }

namespace Node

/-- Merging fields into a node assigns them to its values. -/
theorem valueAt_merge (node : Node) (values : List (Key × Option Leaf)) :
    (node.merge values).valueAt = assignAll
      (values.map fun field => Layers.change (([field.1] : Path), (field.2.elim .empty .leaf : Node)))
      node.valueAt := by
  -- Each field is a change at a path of one name.
  have fields := Layers.valueAt_foldl
    (values.map fun field => (([field.1] : Path), (field.2.elim .empty .leaf : Node))) node
  rw [List.map_map, List.foldl_map] at fields
  exact fields

/-- Distinct fields merged into nothing leave something exactly when one of them has a value. -/
theorem isEmpty_merge_empty {values : List (Key × Option Leaf)} (distinct : (values.map Prod.fst).Nodup) :
    (merge .empty values).isEmpty = false ↔ ∃ field ∈ values, field.2 ≠ none := by
  constructor
  · intro present
    by_contra deleted
    push Not at deleted
    rw [merge_empty deleted, KeyTree.isEmpty_empty] at present
    cases present
  · rintro ⟨⟨key, value⟩, member, stored⟩
    -- No other field of the same name deletes what is stored.
    have kept : ∀ other, (key, other) ∈ values → other ≠ none := by
      intro other listed
      have same := List.inj_on_of_nodup_map distinct listed member rfl
      cases same
      exact stored
    exact KeyTree.not_isEmpty_of_below _ [] [key] (child_merge_isEmpty kept .empty (.inr ⟨value, member⟩))

end Node

namespace Database

/-- Outside of the path of an update, its fields only remove what lies above them. -/
private theorem assignAll_outside {path place : Path} (outside : ¬ path <+: place)
    (values : List (Key × Option Leaf)) (state : Path → Option Leaf) :
    assignAll ((DatabaseWrite.updateChildValues path values).changes) state place =
      if place <+: path ∧ ∃ field ∈ values, field.2 ≠ none then none else state place := by
  -- What each field does with the place.
  have each : ∀ field : Key × Option Leaf,
      Layers.change (path ++ [field.1], (field.2.elim .empty .leaf : Node)) place =
        if place <+: path ∧ field.2 ≠ none then some none else none := by
    intro field
    have notBelow : ¬ path ++ [field.1] <+: place := fun inside =>
      outside ((List.prefix_append _ _).trans inside)
    have above : place <+: path ++ [field.1] ↔ place <+: path := by
      rw [List.prefix_concat_iff]
      constructor
      · rintro (rfl | inside)
        · exact absurd (List.prefix_append _ _) outside
        · exact inside
      · exact .inr
    have stored : (field.2.elim .empty .leaf : Node).isEmpty = false ↔ field.2 ≠ none := by
      cases field.2 <;> simp
    simp only [Layers.change, notBelow, above, stored, if_false]
  have changes : (DatabaseWrite.updateChildValues path values).changes = values.map fun field =>
      Layers.change (path ++ [field.1], (field.2.elim .empty .leaf : Node)) := by
    simp [DatabaseWrite.changes, DatabaseWrite.overwrites, Function.comp_def]
  rw [changes]
  split
  · rename_i removed
    obtain ⟨above, field, member, stored⟩ := removed
    refine assignAll_of_named ?_ ⟨_, List.mem_map.mpr ⟨field, member, rfl⟩, by simp [each, above, stored]⟩
    intro change listed
    obtain ⟨other, _, rfl⟩ := List.mem_map.mp listed
    rw [each]
    split
    · exact .inr rfl
    · exact .inl rfl
  · rename_i kept
    refine assignAll_of_unnamed fun change listed => ?_
    obtain ⟨field, member, rfl⟩ := List.mem_map.mp listed
    rw [each, if_neg fun removed => kept ⟨removed.1, field, member, removed.2⟩]

/-- A write assigns its changes to the values of the database. -/
theorem valueAt_apply {database : Database} {write : DatabaseWrite} (distinct : write.Distinct) :
    (database.apply write).root.valueAt = assignAll write.changes database.root.valueAt := by
  have alone : ∀ one : Path × Node,
      (database.root.set one.1 one.2).valueAt = assignAll [Layers.change one] database.root.valueAt :=
    fun one => Layers.valueAt_foldl [one] database.root
  cases write with
  | setValue path value => exact alone (path, _)
  | removeValue path => exact alone (path, _)
  | updateChildValues path values =>
    funext place
    show (database.root.set path (Node.merge (database.root.get path) values)).valueAt place = _
    rw [KeyTree.valueAt_set]
    by_cases inside : path <+: place
    · -- Below the path the fields are merged into the subtree.
      obtain ⟨rest, rfl⟩ := inside
      rw [if_pos (List.prefix_append _ _), List.drop_left, Node.valueAt_merge]
      refine assignAll_transfer ?_ (KeyTree.valueAt_get _ _ _)
      simp [DatabaseWrite.changes, DatabaseWrite.overwrites, Layers.change_append]
    · rw [if_neg inside, assignAll_outside inside]
      by_cases above : place <+: path
      · cases stored : database.root.valueAt place with
        | none => simp
        | some leaf =>
          -- Nothing is stored below a value.
          obtain ⟨rest, rfl⟩ := above
          have proper : rest ≠ [] := by
            rintro rfl
            simp at inside
          have value : database.root.get place = .leaf leaf := by
            unfold KeyTree.valueAt at stored
            cases read : database.root.get place with
            | leaf other =>
              rw [read] at stored
              cases stored
              rfl
            | node children => simp [read] at stored
          rw [KeyTree.get_append, value, KeyTree.get_leaf_of_ne_nil leaf proper]
          have something := Node.isEmpty_merge_empty distinct
          by_cases listed : ∃ field ∈ values, field.2 ≠ none
          · rw [if_pos ⟨List.prefix_append _ _, something.mpr listed⟩,
              if_pos ⟨List.prefix_append _ _, listed⟩]
          · rw [if_neg fun both => listed (something.mp both.2), if_neg fun both => listed both.2]
      · simp [above]

/-- Perform writes one after the other. -/
def applyAll (database : Database) (writes : List DatabaseWrite) : Database :=
  writes.foldl apply database

@[simp] theorem applyAll_nil (database : Database) : database.applyAll [] = database := rfl

@[simp] theorem applyAll_cons (database : Database) (write : DatabaseWrite) (writes : List DatabaseWrite) :
    database.applyAll (write :: writes) = (database.apply write).applyAll writes := rfl

/-- Databases with the same value along every path are the same. -/
theorem ext_valueAt {first second : Database} (same : first.root.valueAt = second.root.valueAt) :
    first = second := by
  obtain ⟨firstRoot, firstCanonical⟩ := first
  obtain ⟨secondRoot, secondCanonical⟩ := second
  -- A canonical tree is determined by its values.
  obtain rfl : firstRoot = secondRoot := firstCanonical.ext_valueAt secondCanonical (congrFun same)
  rfl

/-- Writes assign their changes to the values of the database. -/
theorem valueAt_applyAll {database : Database} {writes : List DatabaseWrite}
    (distinct : ∀ write ∈ writes, write.Distinct) :
    (database.applyAll writes).root.valueAt =
      assignAll (writes.flatMap DatabaseWrite.changes) database.root.valueAt := by
  induction writes generalizing database with
  | nil => rfl
  -- The changes of the first write come first.
  | cons write writes ih =>
    rw [applyAll_cons, ih fun later member => distinct later (List.mem_cons_of_mem _ member),
      valueAt_apply (distinct write List.mem_cons_self), List.flatMap_cons, assignAll_append]

/-- Writes performed before others that repeat all of them leave no trace. -/
theorem applyAll_replay {database : Database} {earlier later : List DatabaseWrite}
    (distinct : ∀ write ∈ later, write.Distinct) (repeated : ∀ write ∈ earlier, write ∈ later) :
    (database.applyAll earlier).applyAll later = database.applyAll later := by
  refine ext_valueAt ?_
  rw [valueAt_applyAll distinct, valueAt_applyAll distinct,
    valueAt_applyAll fun write member => distinct write (repeated write member)]
  -- Whatever an earlier write assigns is assigned again later.
  refine assignAll_replay fun change member => ?_
  obtain ⟨write, inside, listed⟩ := List.mem_flatMap.mp member
  exact List.mem_flatMap.mpr ⟨write, repeated write inside, listed⟩

end Database

end CardGuru
