import CardGuru.Model.Card

/-! The list of cards as its owner understands it, and how a folder of records realizes it. -/

namespace CardGuru

/-- What the owner of a list of cards does to it. -/
inductive CardOperation where
  /-- A new card is added. -/
  | add (card : Card.View)
  /-- The card with a uid gets a new name and barcode. -/
  | edit (uid name barcode : String)
  /-- The card with a uid gets new notes. -/
  | addNotes (uid notes : String)
  /-- The card with a uid is deleted. -/
  | delete (uid : String)
deriving DecidableEq

namespace CardOperation

/-- The list after an operation. -/
def perform : CardOperation → List Card.View → List Card.View
  -- Cards keep their places, and a new one comes last.
  | .add card, cards => cards ++ [card]
  | .edit uid name barcode, cards =>
    cards.map fun card => if card.uid = uid then { card with name := name, barcode := barcode } else card
  | .addNotes uid notes, cards =>
    cards.map fun card => if card.uid = uid then { card with notesText := some notes } else card
  | .delete uid, cards => cards.filter fun card => card.uid ≠ uid

end CardOperation

namespace Node

/-- The cards of a folder of records, without what concerns their pictures. -/
def views (records : Node) : List Card.View :=
  (cards records).map Card.view

/-- The folder is decoded record by record. -/
theorem views_eq (records : Node) :
    views records =
      records.entries.filterMap fun entry => (Card.ofSnapshot entry.1 entry.2).map Card.view := by
  -- Decoding and forgetting the picture are one pass.
  rw [views, cards, List.map_filterMap]

/-- Forgetting pictures keeps the uids. -/
theorem uids_views (records : Node) :
    (views records).map Card.View.uid = (cards records).map Card.uid := by
  rw [views, List.map_map]
  rfl

/-- A record that decodes is not empty. -/
theorem isEmpty_of_ofSnapshot {key : Key} {record : Node} {card : Card}
    (decoded : Card.ofSnapshot key record = some card) : record.isEmpty = false := by
  -- The empty tree has no name.
  by_contra nothing
  rw [Bool.not_eq_false, KeyTree.isEmpty_iff] at nothing
  subst nothing
  simp [Card.ofSnapshot] at decoded

variable {records record : Node} {key : Key}

/-- Rewriting one record changes the card decoded from it and no other. -/
theorem views_setChild_of_present (canonical : records.Canonical)
    (present : (records.child key).isEmpty = false) (nonempty : record.isEmpty = false)
    {change : Card.View → Card.View}
    (decoded : (Card.ofSnapshot key record).map Card.view =
      ((Card.ofSnapshot key (records.child key)).map Card.view).map change) :
    views (records.setChild key record) =
      (views records).map fun card => if card.uid = key.text then change card else card := by
  -- The record keeps its place among the others.
  rw [views_eq, canonical.filterMap_setChild_of_present present nonempty decoded, views_eq,
    List.map_filterMap]
  refine List.filterMap_congr fun entry _ => ?_
  obtain ⟨stored, value⟩ := entry
  cases made : Card.ofSnapshot stored value with
  | none => simp
  | some card =>
    have uid : card.view.uid = stored.text := Card.uid_of_ofSnapshot made
    by_cases same : stored = key
    · subst same
      simp [uid]
    · have other : stored.text ≠ key.text := fun text => same (Key.ext_text text)
      simp [same, uid, other]

/-- A decodable record under a new key adds its card at the end if no later record decodes. -/
theorem views_setChild_of_absent (canonical : records.Canonical)
    (absent : (records.child key).isEmpty = true) {card : Card}
    (decoded : Card.ofSnapshot key record = some card)
    (later : ∀ entry ∈ records.entries, key < entry.1 → Card.ofSnapshot entry.1 entry.2 = none) :
    views (records.setChild key record) = views records ++ [card.view] := by
  -- The new entry is followed by undecodable ones only.
  rw [views_eq, canonical.filterMap_setChild_of_absent absent (isEmpty_of_ofSnapshot decoded),
    views_eq]
  · simp [decoded]
  · intro entry member above
    simp [later entry member above]

/-- Removing a record removes the card decoded from it. -/
theorem views_setChild_empty (records : Node) (key : Key) :
    views (records.setChild key .empty) = (views records).filter fun card => card.uid ≠ key.text := by
  -- Among the decoded cards exactly the one of the record carries its key.
  rw [views_eq, KeyTree.entries_setChild_empty, views_eq, List.filterMap_filter,
    List.filter_filterMap]
  refine List.filterMap_congr fun entry _ => ?_
  obtain ⟨stored, value⟩ := entry
  cases made : Card.ofSnapshot stored value with
  | none => simp
  | some card =>
    have uid : card.view.uid = stored.text := Card.uid_of_ofSnapshot made
    by_cases same : stored = key
    · simp [same, uid, Option.filter]
    · have other : stored.text ≠ key.text := fun text => same (Key.ext_text text)
      simp [same, uid, other, Option.filter]

/-- A card is listed exactly if it is decoded from the record under some key. -/
theorem mem_cards_iff (canonical : records.Canonical) {card : Card} :
    card ∈ cards records ↔ ∃ key, Card.ofSnapshot key (records.child key) = some card := by
  constructor
  · intro listed
    obtain ⟨⟨key, record⟩, member, decoded⟩ := List.mem_filterMap.mp listed
    refine ⟨key, ?_⟩
    rw [canonical.child_of_mem member]
    exact decoded
  · intro ⟨key, decoded⟩
    -- A record that decodes is stored.
    have member := KeyTree.mem_entries_of_child (isEmpty_of_ofSnapshot decoded)
    exact List.mem_filterMap.mpr ⟨_, member, decoded⟩

/-- Folders whose records agree in the fields of a card hold the same cards. -/
theorem cards_congr {other : Node} (canonical : records.Canonical) (otherCanonical : other.Canonical)
    (same : ∀ key, ∀ field ∈ Card.fields,
      (records.child key).child field = (other.child key).child field) :
    cards records = cards other := by
  -- Decoding looks at nothing else.
  refine canonical.filterMap_congr otherCanonical ?_ ?_
  · intro key
    simp [Card.ofSnapshot]
  · intro key
    have agrees := same key
    simp only [Card.fields, List.forall_mem_cons] at agrees
    obtain ⟨name, barcode, absoluteURL, notes, _⟩ := agrees
    simp only [Card.ofSnapshot, name, barcode, absoluteURL, notes]

/-- A key is listed exactly if its record decodes. -/
theorem text_mem_uids_iff (canonical : records.Canonical) :
    key.text ∈ (cards records).map Card.uid ↔
      (Card.ofSnapshot key (records.child key)).isSome = true := by
  -- A card is decoded from the record under its own uid.
  constructor
  · intro listed
    obtain ⟨card, inside, uid⟩ := List.mem_map.mp listed
    obtain ⟨stored, decoded⟩ := (mem_cards_iff canonical).mp inside
    obtain rfl : stored = key := Key.ext_text ((Card.uid_of_ofSnapshot decoded).symm.trans uid)
    rw [decoded, Option.isSome_some]
  · intro decodes
    obtain ⟨card, decoded⟩ := Option.isSome_iff_exists.mp decodes
    have inside := (mem_cards_iff canonical).mpr ⟨key, decoded⟩
    exact List.mem_map.mpr ⟨card, inside, Card.uid_of_ofSnapshot decoded⟩

/-- Every listed uid is a key. -/
theorem exists_key_of_mem_uids {uid : String} (listed : uid ∈ (cards records).map Card.uid) :
    ∃ key : Key, uid = key.text := by
  obtain ⟨card, inside, rfl⟩ := List.mem_map.mp listed
  obtain ⟨⟨key, record⟩, _, decoded⟩ := List.mem_filterMap.mp inside
  exact ⟨key, Card.uid_of_ofSnapshot decoded⟩

/-- No uid is listed twice. -/
theorem nodup_uids (canonical : records.Canonical) : ((cards records).map Card.uid).Nodup := by
  -- The uids are some of the keys, which are in strict order.
  have increasing : ((cards records).map Card.uid).Pairwise fun first second =>
      ∃ earlier later : Key, earlier.text = first ∧ later.text = second ∧ earlier < later := by
    rw [List.pairwise_map, cards, List.pairwise_filterMap]
    refine canonical.sorted.imp ?_
    intro first second before card decoded other decodedToo
    exact ⟨first.1, second.1, (Card.uid_of_ofSnapshot decoded).symm,
      (Card.uid_of_ofSnapshot decodedToo).symm, before⟩
  refine increasing.imp ?_
  rintro _ _ ⟨earlier, later, rfl, rfl, before⟩ same
  exact before.ne (Key.ext_text same)

/-- A listed uid is the key of a record that decodes. -/
theorem exists_key_of_mem_views (canonical : records.Canonical) {uid : String}
    (listed : uid ∈ (views records).map Card.View.uid) :
    ∃ key : Key, uid = key.text ∧ ∃ card, Card.ofSnapshot key (records.child key) = some card := by
  rw [uids_views] at listed
  obtain ⟨key, rfl⟩ := exists_key_of_mem_uids listed
  exact ⟨key, rfl, Option.isSome_iff_exists.mp ((text_mem_uids_iff canonical).mp listed)⟩

end Node

end CardGuru
