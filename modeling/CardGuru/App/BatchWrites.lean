import CardGuru.App.Views
import CardGuru.Model.CardBatch

/-! What the writes of a batch of operations on different cards leave in the database, up to the
addresses of pictures. -/

namespace CardGuru

/-- The value stored exactly at a node. -/
def Node.leaf? : Node → Option Leaf
  -- Inner nodes only hold children.
  | .leaf value => some value
  | .node _ => none

/-- Storing a child leaves an inner node. -/
theorem Node.leaf?_setChild_of_present {node child : Node} (key : Key)
    (present : child.isEmpty = false) : leaf? (node.setChild key child) = none := by
  simp [KeyTree.setChild, present, leaf?]

/-- An inner node stays one, whatever becomes of its children. -/
theorem Node.leaf?_setChild {node : Node} (inner : node.leaf? = none) (key : Key) (child : Node) :
    leaf? (node.setChild key child) = none := by
  -- Setting a child never turns a node into a leaf.
  cases node with
  | leaf value => cases inner
  | node entries =>
    unfold KeyTree.setChild
    split <;> rfl

namespace Database

/-- The value stored exactly at a path. -/
def value (database : Database) (path : Path) : Option Leaf :=
  Node.leaf? (database.get path)

/-- The same values are stored at the same paths, except that the address of a picture of a card of
the user may be another one. -/
def SameUpToURLs (userRef : String) (first second : Database) : Prop :=
  -- The two values may differ, but both are addresses.
  ∀ path, first.value path = second.value path ∨
    (∃ key, path = DatabaseService.cardsPath userRef ++ [key, Key.absoluteURL]) ∧
      ∃ url other, first.value path = some (.string url) ∧ second.value path = some (.string other)

variable {database : Database} {userRef : String} {path : Path}

/-- Where something is stored below, no value is stored. -/
theorem value_of_below {key : Key} {below : Path}
    (present : (database.get (path ++ key :: below)).isEmpty = false) :
    database.value path = none := by
  unfold value
  cases stored : database.get path with
  | node entries => rfl
  | leaf value =>
    -- Below a value everything is empty.
    have nothing : database.get (path ++ key :: below) = .empty := by
      rw [get, KeyTree.get_append]
      show KeyTree.get (database.get path) (key :: below) = .empty
      rw [stored]
      exact KeyTree.get_leaf_of_ne_nil value (List.cons_ne_nil _ _)
    simp [nothing] at present

/-- A write below an inner node keeps it an inner node. -/
theorem value_apply_above {write : DatabaseWrite} {key : Key} {below : Path}
    (splits : write.path = path ++ key :: below) (inner : database.value path = none) :
    (database.apply write).value path = none := by
  -- The write changes one of the children of the node.
  rw [value, get_apply_above database splits, KeyTree.set_cons]
  exact Node.leaf?_setChild inner key _

end Database

namespace CardOperation

/-- The write that brings an operation into the database of a user. -/
inductive Requested (userRef : String) : CardOperation → DatabaseWrite → Prop where
  /-- An edit is written with the address of its picture. -/
  | edit (card : Card) (url : String) :
    Requested userRef (.edit card.uid card.name card.barcode) (updateRequest userRef card url)
  /-- Notes are written alone. -/
  | addNotes (uid notes : String) :
    Requested userRef (.addNotes uid notes) (notesRequest userRef uid notes)
  /-- A deletion removes the record. -/
  | delete (uid : String) : Requested userRef (.delete uid) (removeRequest userRef uid)

variable {operation : CardOperation} {operations other : List CardOperation} {write : DatabaseWrite}
  {userRef : String} {database start first second : Database}

namespace Requested

/-- The write concerns the record of the card. -/
theorem path (requested : Requested userRef operation write) :
    write.path = DatabaseService.recordPath userRef operation.uid := by
  cases requested <;> rfl

/-- The write performs the operation on the list of the database. -/
theorem views (requested : Requested userRef operation write)
    (listed : operation.uid ∈ (database.views userRef).map Card.View.uid) :
    (database.apply write).views userRef = operation.perform (database.views userRef) := by
  -- Each request does to the listed cards what its operation says.
  cases requested with
  | edit card url => exact Database.views_updateRequest listed
  | addNotes uid notes => exact Database.views_notesRequest listed
  | delete uid => exact Database.views_removeRequest listed

end Requested

/-- What the writes of a batch leave of a database. -/
structure Leaves (userRef : String) (start : Database) (operations : List CardOperation)
    (after : Database) : Prop where
  /-- Without an operation nothing changes. -/
  idle : operations = [] → after = start
  /-- Nothing is written outside the folder of the cards. -/
  outside : ∀ path, ¬ path <+: DatabaseService.cardsPath userRef →
    ¬ DatabaseService.cardsPath userRef <+: path → after.get path = start.get path
  /-- Above the written records there are inner nodes only. -/
  above : operations ≠ [] → ∀ path, path <+: DatabaseService.cardsPath userRef →
    after.value path = none
  /-- The records of other cards stay as they are. -/
  others : ∀ key : Key, (∀ operation ∈ operations, operation.uid ≠ key.text) →
    after.get (DatabaseService.cardsPath userRef ++ [key]) =
      start.get (DatabaseService.cardsPath userRef ++ [key])
  /-- The record of a card of the batch is changed by its one write. -/
  changed : ∀ operation ∈ operations, ∃ key : Key, operation.uid = key.text ∧
    ∃ write, Requested userRef operation write ∧
      after.get (DatabaseService.cardsPath userRef ++ [key]) =
        write.replacement (start.get (DatabaseService.cardsPath userRef ++ [key]))

namespace Leaves

/-- No writes leave everything. -/
theorem nil (userRef : String) (start : Database) : Leaves userRef start [] start := by
  -- There is no operation of which anything has to be shown.
  refine ⟨fun _ => rfl, fun _ _ _ => rfl, fun some => absurd rfl some, fun _ _ => rfl, ?_⟩
  intro operation member
  cases member

/-- The write of one more card of the list extends the batch. -/
theorem snoc (leaves : Leaves userRef start operations database)
    (requested : Requested userRef operation write)
    (listed : operation.uid ∈ (database.views userRef).map Card.View.uid)
    (different : ∀ other ∈ operations, other.uid ≠ operation.uid) :
    Leaves userRef start (operations ++ [operation]) (database.apply write) := by
  have canonical := database.canonical_get (DatabaseService.cardsPath userRef)
  obtain ⟨key, uid, card, decodes⟩ := Node.exists_key_of_mem_views canonical listed
  have addressed : write.path = DatabaseService.cardsPath userRef ++ [key] := by
    rw [requested.path, uid, Database.recordPath_text]
  -- The record of another card lies elsewhere.
  have elsewhere : ∀ other : Key, other ≠ key →
      (database.apply write).get (DatabaseService.cardsPath userRef ++ [other]) =
        database.get (DatabaseService.cardsPath userRef ++ [other]) := by
    intro other apart
    refine Database.get_apply_disjoint database ?_ ?_
    · rw [addressed, List.prefix_append_right_inj]
      simpa using Ne.symm apart
    · rw [addressed, List.prefix_append_right_inj]
      simpa using apart
  refine ⟨?_, ?_, ?_, ?_, ?_⟩
  · simp
  · intro path notAbove notBelow
    rw [Database.get_apply_disjoint database, leaves.outside path notAbove notBelow]
    · rw [addressed]
      exact fun below => notBelow ((List.prefix_append _ _).trans below)
    · rw [addressed]
      intro leads
      rcases List.prefix_concat_iff.mp leads with rfl | inside
      · exact notBelow (List.prefix_append _ _)
      · exact notAbove inside
  · intro _ path leads
    obtain ⟨rest, splits⟩ := leads
    -- The record that is written was not empty, so no value was stored above it.
    have present : (database.get (path ++ (rest ++ [key]))).isEmpty = false := by
      rw [← List.append_assoc, splits, Database.get_concat]
      exact Node.isEmpty_of_ofSnapshot decodes
    have placed : write.path = path ++ (rest ++ [key]) := by
      rw [addressed, ← splits, List.append_assoc]
    obtain ⟨head, below, shape⟩ := List.exists_cons_of_ne_nil (List.concat_ne_nil key rest)
    rw [shape] at present placed
    exact Database.value_apply_above placed (Database.value_of_below present)
  · intro other untouched
    have apart : other ≠ key := by
      rintro rfl
      exact untouched operation (by simp) uid
    rw [elsewhere other apart]
    exact leaves.others other fun earlier member => untouched earlier (by simp [member])
  · intro done member
    rcases List.mem_append.mp member with old | new
    · obtain ⟨other, named, earlier, issued, record⟩ := leaves.changed done old
      have apart : other ≠ key := by
        rintro rfl
        exact different done old (named.trans uid.symm)
      refine ⟨other, named, earlier, issued, ?_⟩
      rw [elsewhere other apart, record]
    · obtain rfl := List.mem_singleton.mp new
      refine ⟨key, uid, write, requested, ?_⟩
      have before := leaves.others key fun other member => uid ▸ different other member
      rw [← addressed, Database.get_apply_self, addressed, before]

/-- Two writes of one operation store the same values, except for the address of the picture. -/
private theorem leaf?_replacement {before : Node} {one two : DatabaseWrite}
    (requested : Requested userRef operation one) (again : Requested userRef operation two)
    (below : Path) :
    Node.leaf? ((one.replacement before).get below) = Node.leaf? ((two.replacement before).get below) ∨
      below = [Key.absoluteURL] ∧
        ∃ url other, Node.leaf? ((one.replacement before).get below) = some (.string url) ∧
          Node.leaf? ((two.replacement before).get below) = some (.string other) := by
  cases requested with
  | addNotes uid notes =>
    cases again
    exact .inl rfl
  | delete uid =>
    cases again
    exact .inl rfl
  | edit card url =>
    generalize same : CardOperation.edit card.uid card.name card.barcode = operation at again
    cases again with
    | addNotes uid notes => cases same
    | delete uid => cases same
    | edit other address =>
      injection same with uid name barcode
      simp only [updateRequest, DatabaseWrite.replacement, name, barcode]
      -- The two merged records differ in one field.
      cases below with
      | nil =>
        left
        simp only [Node.merge_cons, Node.merge_nil, KeyTree.get_nil, Option.elim_some]
        rw [Node.leaf?_setChild_of_present, Node.leaf?_setChild_of_present]
        · rfl
        · rfl
      | cons field deeper =>
        by_cases address : field = Key.absoluteURL
        · subst address
          simp only [Node.merge_cons, Node.merge_nil, Option.elim_some, KeyTree.get_cons,
            KeyTree.child_setChild_self]
          cases deeper with
          | nil => exact .inr ⟨rfl, _, _, rfl, rfl⟩
          | cons head tail =>
            left
            rw [KeyTree.get_leaf_of_ne_nil _ (List.cons_ne_nil _ _),
              KeyTree.get_leaf_of_ne_nil _ (List.cons_ne_nil _ _)]
        · left
          simp only [Node.merge_cons, Node.merge_nil, Option.elim_some, KeyTree.get_cons,
            KeyTree.child_setChild_ne _ address]

/-- Batches of the same operations on different cards leave the same values, except for addresses
of pictures. -/
theorem sameUpToURLs (leaves : Leaves userRef start operations first)
    (otherLeaves : Leaves userRef start other second) (order : operations.Perm other) :
    Database.SameUpToURLs userRef first second := by
  -- Above the records both hold inner nodes, or nothing was written at all.
  have above : ∀ path, path <+: DatabaseService.cardsPath userRef →
      first.value path = second.value path := by
    intro path leads
    by_cases none : operations = []
    · have noneOther : other = [] := by simpa [none] using order.symm
      rw [leaves.idle none, otherLeaves.idle noneOther]
    · have someOther : other ≠ [] := fun empty => none (by simpa [empty] using order)
      rw [leaves.above none path leads, otherLeaves.above someOther path leads]
  intro path
  by_cases leads : path <+: DatabaseService.cardsPath userRef
  · exact .inl (above path leads)
  by_cases inside : DatabaseService.cardsPath userRef <+: path
  · obtain ⟨rest, rfl⟩ := inside
    cases rest with
    | nil => exact absurd (by simp) leads
    | cons key below =>
      have record : ∀ database : Database,
          database.value (DatabaseService.cardsPath userRef ++ key :: below) =
            Node.leaf? ((database.get (DatabaseService.cardsPath userRef ++ [key])).get below) := by
        intro database
        rw [Database.value, List.append_cons, Database.get, KeyTree.get_append]
        rfl
      rw [record, record]
      by_cases concerned : ∃ operation ∈ operations, operation.uid = key.text
      · obtain ⟨operation, member, uid⟩ := concerned
        -- Both batches write the record once, by the same operation.
        obtain ⟨one, named, write, requested, changed⟩ := leaves.changed operation member
        obtain ⟨two, namedToo, again, issued, changedToo⟩ :=
          otherLeaves.changed operation (order.mem_iff.mp member)
        obtain rfl : one = key := Key.ext_text (named.symm.trans uid)
        obtain rfl : two = one := Key.ext_text (namedToo.symm.trans uid)
        rw [changed, changedToo]
        rcases leaf?_replacement requested issued below with same | ⟨rfl, addresses⟩
        · exact .inl same
        · exact .inr ⟨⟨two, rfl⟩, addresses⟩
      · left
        have untouched : ∀ operation ∈ operations, operation.uid ≠ key.text :=
          fun operation member uid => concerned ⟨operation, member, uid⟩
        rw [leaves.others key untouched, otherLeaves.others key fun operation member =>
          untouched operation (order.mem_iff.mpr member)]
  · left
    rw [Database.value, Database.value, leaves.outside path leads inside,
      otherLeaves.outside path leads inside]

end Leaves

end CardOperation

end CardGuru
