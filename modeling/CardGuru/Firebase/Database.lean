import Mathlib.Data.Rat.Defs
import CardGuru.Firebase.Key
import CardGuru.Lib.KeyTree

/-! The realtime database: its content, the writes made on it and what each write leaves behind. -/

namespace CardGuru

/-- Why a step of the program does not happen. -/
inductive Fault where
  /-- The user interface or the platform offers no such step in this state. -/
  | unavailable
  /-- `child:` raises on a string that is empty or contains an invalid character. -/
  | invalidPathValidation (pathString : String)
  /-- Writing raises on a string that exceeds the maximal leaf size. -/
  | invalidFirebaseData (text : String)
  /-- `reference(forURL:)` raises on a string that names no object of the storage bucket. -/
  | invalidStorageURL (url : String)
  /-- An array is read at an index that is not below its count. -/
  | indexOutOfRange (index count : Nat)
deriving DecidableEq

/-- A sequence of two steps succeeds exactly through the result of the first. -/
theorem bind_ok {α β : Type} {first : Except Fault α} {next : α → Except Fault β} {result : β}
    (done : first >>= next = .ok result) :
    ∃ value, first = .ok value ∧ next value = .ok result := by
  -- A fault of the first step is the fault of the sequence.
  cases first with
  | error fault => cases done
  | ok value => exact ⟨value, rfl, done⟩

/-- A value stored at a leaf. -/
inductive Leaf where
  /-- A string. -/
  | string (text : String)
  /-- A number. -/
  | number (value : ℚ)
  /-- A truth value. -/
  | boolean (value : Bool)
deriving DecidableEq

/-- A subtree of the database. -/
abbrev Node := KeyTree Key Leaf

/-- The largest number of UTF-8 bytes of a stored string. -/
def kFirebaseMaxLeafSize : Nat := 1024 * 1024 * 10

/-- Whether a value may be stored. -/
def Leaf.isValidLeafValue : Leaf → Bool
  -- Only strings have a maximal size.
  | .string text => text.utf8ByteSize ≤ kFirebaseMaxLeafSize
  | .number _ => true
  | .boolean _ => true

namespace Node

/-- Merge the listed children into a node; a field without a value is deleted. -/
def merge (node : Node) (values : List (Key × Option Leaf)) : Node :=
  -- Children that are not listed stay as they are.
  values.foldl (fun merged field => merged.setChild field.1 (field.2.elim .empty .leaf)) node

/-- The string stored at a node, if it is one. -/
def string? : Node → Option String
  -- A cast to a string fails for every other value.
  | .leaf (.string text) => some text
  | _ => none

@[simp] theorem string?_leaf (text : String) : string? (.leaf (.string text)) = some text := rfl

@[simp] theorem string?_empty : string? .empty = none := rfl

/-- Merging nothing changes nothing. -/
@[simp] theorem merge_nil (node : Node) : node.merge [] = node := rfl

/-- Merging fields stores the first and then merges the others. -/
@[simp] theorem merge_cons (node : Node) (field : Key × Option Leaf)
    (values : List (Key × Option Leaf)) :
    node.merge (field :: values) =
      merge (node.setChild field.1 (field.2.elim .empty .leaf)) values := rfl

/-- A field that is not listed keeps its value. -/
theorem child_merge_of_not_mem {values : List (Key × Option Leaf)} {key : Key}
    (unlisted : ∀ field ∈ values, field.1 ≠ key) (node : Node) :
    (node.merge values).child key = node.child key := by
  -- Every listed field is a sibling.
  induction values generalizing node with
  | nil => rfl
  | cons field values ih =>
    rw [merge_cons, ih fun other member => unlisted other (List.mem_cons_of_mem _ member)]
    exact KeyTree.child_setChild_ne node (unlisted field List.mem_cons_self).symm _

/-- Merging keeps the node canonical. -/
theorem canonical_merge {node : Node} (canonical : node.Canonical)
    (values : List (Key × Option Leaf)) : (node.merge values).Canonical := by
  -- Each field stores a value or removes a child.
  induction values generalizing node with
  | nil => exact canonical
  | cons field values ih =>
    refine ih (canonical.setChild field.1 ?_)
    cases field.2 with
    | none => exact KeyTree.canonical_empty
    | some leaf => exact .leaf leaf

/-- A field listed with a value, and never for deletion, holds a value afterwards. -/
theorem child_merge_isEmpty {values : List (Key × Option Leaf)} {key : Key}
    (kept : ∀ value, (key, value) ∈ values → value ≠ none) (node : Node)
    (present : (node.child key).isEmpty = false ∨ ∃ value, (key, value) ∈ values) :
    ((node.merge values).child key).isEmpty = false := by
  -- Once the field holds a value, later entries of the list can only replace it.
  induction values generalizing node with
  | nil =>
    rcases present with present | ⟨_, member⟩
    · exact present
    · simp at member
  | cons field values ih =>
    obtain ⟨name, value⟩ := field
    rw [merge_cons]
    refine ih (fun other member => kept other (List.mem_cons_of_mem _ member)) _ ?_
    by_cases same : name = key
    · subst same
      left
      cases value with
      | none => exact absurd rfl (kept none List.mem_cons_self)
      | some leaf => simp
    · rcases present with present | ⟨other, member⟩
      · left
        simpa [KeyTree.child_setChild_ne node (Ne.symm same)] using present
      · rcases List.mem_cons.mp member with head | member
        · cases head
          exact absurd rfl same
        · exact .inr ⟨other, member⟩

/-- After a merge a field is as before, deleted, or a listed value. -/
theorem child_merge_cases (values : List (Key × Option Leaf)) (key : Key) (node : Node) :
    (node.merge values).child key = node.child key ∨ (node.merge values).child key = .empty ∨
      ∃ leaf, (key, some leaf) ∈ values ∧ (node.merge values).child key = .leaf leaf := by
  -- The last entry of the field decides.
  induction values generalizing node with
  | nil => exact .inl rfl
  | cons field values ih =>
    obtain ⟨name, value⟩ := field
    rw [merge_cons]
    rcases ih (node.setChild name (value.elim .empty .leaf)) with same | gone | ⟨leaf, member, reads⟩
    · by_cases listed : name = key
      · subst listed
        rw [same, KeyTree.child_setChild_self]
        cases value with
        | none => exact .inr (.inl rfl)
        | some leaf => exact .inr (.inr ⟨leaf, List.mem_cons_self, rfl⟩)
      · rw [same, KeyTree.child_setChild_ne node (Ne.symm listed)]
        exact .inl rfl
    · exact .inr (.inl gone)
    · exact .inr (.inr ⟨leaf, List.mem_cons_of_mem _ member, reads⟩)

/-- Deleting fields of nothing leaves nothing. -/
theorem merge_empty {values : List (Key × Option Leaf)}
    (deleted : ∀ field ∈ values, field.2 = none) : merge .empty values = .empty := by
  -- Each deletion meets the empty node again.
  induction values with
  | nil => rfl
  | cons field values ih =>
    rw [merge_cons, deleted field List.mem_cons_self]
    exact ih fun other member => deleted other (List.mem_cons_of_mem _ member)

end Node

/-- The content of the database, in the order in which children are enumerated. -/
structure Database where
  /-- Everything stored. -/
  root : Node
  /-- Children are ordered by key, and no empty child is stored. -/
  canonical : root.Canonical

/-- A write request. -/
inductive DatabaseWrite where
  /-- Replace what is stored at a path by the listed fields. -/
  | setValue (path : Path) (value : List (Key × Leaf))
  /-- Merge the listed fields into what is stored at a path. -/
  | updateChildValues (path : Path) (values : List (Key × Option Leaf))
  /-- Delete what is stored at a path. -/
  | removeValue (path : Path)
deriving DecidableEq

namespace DatabaseWrite

/-- The path a write addresses. -/
def path : DatabaseWrite → Path
  -- Each request is made on one reference.
  | setValue path _ => path
  | updateChildValues path _ => path
  | removeValue path => path

/-- The fields a write lists, with the value each of them gets. -/
def fields : DatabaseWrite → List (Key × Option Leaf)
  -- A deletion lists nothing.
  | setValue _ value => value.map fun field => (field.1, some field.2)
  | updateChildValues _ values => values
  | removeValue _ => []

/-- What a write makes of the subtree at its path. -/
def replacement : DatabaseWrite → Node → Node
  -- Only an update looks at what was stored before.
  | setValue path value, _ => Node.merge .empty (fields (setValue path value))
  | updateChildValues _ values, stored => stored.merge values
  | removeValue _, _ => .empty

/-- The values a write stores. -/
def values (write : DatabaseWrite) : List Leaf :=
  -- Deleted fields store nothing.
  write.fields.filterMap Prod.snd

/-- A write stores a value at the given place or below it. -/
def StoresUnder (write : DatabaseWrite) (place : Path) : Prop :=
  ∃ key leaf, (key, some leaf) ∈ write.fields ∧ place <+: write.path ++ [key]

/-- The replacement of a canonical subtree is canonical. -/
theorem canonical_replacement (write : DatabaseWrite) {stored : Node}
    (canonical : stored.Canonical) : (write.replacement stored).Canonical := by
  -- Fields are merged into an empty node or into the stored one.
  cases write with
  | setValue path value => exact Node.canonical_merge KeyTree.canonical_empty _
  | updateChildValues path values => exact Node.canonical_merge canonical values
  | removeValue path => exact KeyTree.canonical_empty

/-- After a write a field at its path is as before, absent, or a listed value. -/
theorem child_replacement_cases (write : DatabaseWrite) (key : Key) (stored : Node) :
    (write.replacement stored).child key = stored.child key ∨
      (write.replacement stored).child key = .empty ∨
      ∃ leaf, (key, some leaf) ∈ write.fields ∧
        (write.replacement stored).child key = .leaf leaf := by
  -- A replaced record keeps no field of the old one.
  cases write with
  | setValue path value =>
    rcases Node.child_merge_cases (fields (setValue path value)) key .empty with
      same | gone | listed
    · exact .inr (.inl (same.trans (KeyTree.child_empty key)))
    · exact .inr (.inl gone)
    · exact .inr (.inr listed)
  | updateChildValues path values => exact Node.child_merge_cases values key stored
  | removeValue path => exact .inr (.inl (KeyTree.child_empty key))

end DatabaseWrite

namespace Database

/-- The subtree at a path. -/
def get (database : Database) (path : Path) : Node :=
  -- Reading starts at the root.
  database.root.get path

/-- Perform a write. -/
def apply (database : Database) (write : DatabaseWrite) : Database where
  -- The subtree at the path of the write is replaced, whatever the request was.
  root := database.root.set write.path (write.replacement (database.get write.path))
  canonical :=
    database.canonical.set _ (write.canonical_replacement (database.canonical.get write.path))

/-- Every subtree of the database is canonical. -/
theorem canonical_get (database : Database) (path : Path) : (database.get path).Canonical :=
  -- Canonical trees have canonical subtrees.
  database.canonical.get path

/-- At its own path a write leaves its replacement. -/
@[simp] theorem get_apply_self (database : Database) (write : DatabaseWrite) :
    (database.apply write).get write.path = write.replacement (database.get write.path) :=
  -- The written path reads what was set there.
  KeyTree.get_set_self _ _ _

/-- Below its own path a write leaves the parts of its replacement. -/
theorem get_apply_below (database : Database) (write : DatabaseWrite) (below : Path) :
    (database.apply write).get (write.path ++ below) =
      (write.replacement (database.get write.path)).get below :=
  -- Reading goes through the replaced subtree.
  KeyTree.get_set_append _ _ _ _

/-- Above its own path a write is read inside the ancestor. -/
theorem get_apply_above (database : Database) {write : DatabaseWrite} {above rest : Path}
    (splits : write.path = above ++ rest) :
    (database.apply write).get above =
      (database.get above).set rest (write.replacement (database.get write.path)) := by
  -- The ancestor is rebuilt along the rest of the path.
  show (database.root.set write.path _).get above = _
  rw [splits, KeyTree.get_set_of_append]
  rfl

/-- A write changes nothing at paths of which neither continues the other. -/
theorem get_apply_disjoint (database : Database) {write : DatabaseWrite} {path : Path}
    (notBelow : ¬ write.path <+: path) (notAbove : ¬ path <+: write.path) :
    (database.apply write).get path = database.get path :=
  -- The two paths part at different keys.
  KeyTree.get_set_disjoint _ notBelow notAbove _

/-- Nothing appears at an empty place unless a value is stored there or below. -/
theorem get_apply_isEmpty {database : Database} {write : DatabaseWrite} {place : Path}
    (outside : ¬ write.StoresUnder place) (absent : (database.get place).isEmpty = true) :
    ((database.apply write).get place).isEmpty = true := by
  -- The place lies above the written path, below it, or apart from it.
  by_cases above : place <+: write.path
  · -- Then every listed field is a deletion.
    obtain ⟨rest, splits⟩ := above
    have deleted : ∀ field ∈ write.fields, field.2 = none := by
      rintro ⟨key, value⟩ member
      cases value with
      | none => rfl
      | some leaf =>
        exact absurd ⟨key, leaf, member, ⟨rest ++ [key], by rw [← splits, List.append_assoc]⟩⟩ outside
    have nothing : database.get place = .empty := KeyTree.isEmpty_iff.mp absent
    have stored : database.get write.path = .empty := by
      rw [← splits, get, KeyTree.get_append]
      show KeyTree.get (database.get place) rest = .empty
      rw [nothing, KeyTree.get_empty]
    have replaced : write.replacement .empty = .empty := by
      cases write with
      | setValue path value => exact Node.merge_empty deleted
      | updateChildValues path values => exact Node.merge_empty deleted
      | removeValue path => rfl
    rw [get_apply_above database splits.symm, nothing, stored, replaced, KeyTree.set_empty_empty,
      KeyTree.isEmpty_empty]
  · by_cases below : write.path <+: place
    · obtain ⟨rest, rfl⟩ := below
      cases rest with
      | nil => exact absurd ⟨[], by simp⟩ above
      | cons key rest =>
        rw [get_apply_below, KeyTree.get_cons]
        have before : (((database.get write.path).child key).get rest).isEmpty = true := by
          rw [get, KeyTree.get_append] at absent
          exact absent
        -- A value stored at the key itself has nothing below it.
        have settled : ∀ leaf, (key, some leaf) ∈ write.fields →
            ((.leaf leaf : Node).get rest).isEmpty = true := by
          intro leaf member
          have proper : rest ≠ [] := by
            rintro rfl
            exact outside ⟨key, leaf, member, List.prefix_refl _⟩
          rw [KeyTree.get_leaf_of_ne_nil leaf proper, KeyTree.isEmpty_empty]
        rcases write.child_replacement_cases key (database.get write.path) with
          same | gone | ⟨leaf, member, reads⟩
        · rw [same]
          exact before
        · rw [gone, KeyTree.get_empty, KeyTree.isEmpty_empty]
        · rw [reads]
          exact settled leaf member
    · rw [get_apply_disjoint database below above]
      exact absent

/-- A place is not empty after a value was stored there or below. -/
theorem get_apply_present {database : Database} {write : DatabaseWrite} {place : Path}
    (plain : ∀ field ∈ write.fields, field.2 ≠ none) (stored : write.StoresUnder place) :
    ((database.apply write).get place).isEmpty = false := by
  -- The stored field itself is present, and so is everything above it.
  obtain ⟨key, leaf, member, rest, splits⟩ := stored
  have present : ∀ node : Node, ((node.merge write.fields).child key).isEmpty = false := fun node =>
    Node.child_merge_isEmpty (fun value listed => plain (key, value) listed) node
      (.inr ⟨some leaf, member⟩)
  apply KeyTree.not_isEmpty_of_below _ place rest
  rw [splits]
  show ((database.apply write).get (write.path ++ [key])).isEmpty = false
  rw [get_apply_below]
  cases write with
  | setValue path value => exact present .empty
  | updateChildValues path values => exact present _
  | removeValue path => simp [DatabaseWrite.fields] at member

end Database

end CardGuru
