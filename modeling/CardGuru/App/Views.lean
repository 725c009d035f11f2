import CardGuru.App.Requests
import CardGuru.Model.CardList

/-! Each write request performs one operation on the list that a load would deliver, and each report
to the home screen performs the same operation on the list of the screen. -/

namespace CardGuru

namespace Node

variable {record : Node} {key : Key}

/-- A stored new card decodes to its name and barcode. -/
theorem ofSnapshot_newCard (name barcode : String) :
    Card.ofSnapshot key (merge .empty [(Key.name, some (.string name)),
      (Key.barcode, some (.string barcode))]) =
      some { uid := key.text, name := name, barcode := barcode, image := none
             absoluteURL := none, notesText := none } := by
  -- The two fields are different children, and the other two stay absent.
  simp (disch := decide) only [Card.ofSnapshot, merge_cons, merge_nil, Option.elim_some,
    KeyTree.child_setChild_ne, KeyTree.child_setChild_self, KeyTree.child_empty, string?_leaf,
    string?_empty]

/-- An updated record decodes to the new values and its old notes. -/
theorem ofSnapshot_update (name barcode url : String) :
    Card.ofSnapshot key (record.merge [(Key.name, some (.string name)),
      (Key.barcode, some (.string barcode)), (Key.absoluteURL, some (.string url))]) =
      some { uid := key.text, name := name, barcode := barcode, image := none
             absoluteURL := some url, notesText := string? (record.child Key.notes) } := by
  -- All fields but the notes are written.
  simp (disch := decide) only [Card.ofSnapshot, merge_cons, merge_nil, Option.elim_some,
    KeyTree.child_setChild_ne, KeyTree.child_setChild_self, string?_leaf]

/-- A record with new notes decodes to the old values and the new notes. -/
theorem ofSnapshot_notes (notes : String) :
    Card.ofSnapshot key (record.merge [(Key.notes, some (.string notes))]) =
      (Card.ofSnapshot key record).map fun card => { card with notesText := some notes } := by
  -- The notes do not decide whether the record decodes.
  simp (disch := decide) only [Card.ofSnapshot, merge_cons, merge_nil, Option.elim_some,
    KeyTree.child_setChild_ne, KeyTree.child_setChild_self, string?_leaf]
  cases string? (record.child Key.name) with
  | none => rfl
  | some name => cases string? (record.child Key.barcode) <;> rfl

end Node

namespace Database

/-- The list of cards that a load of a user would deliver, without what concerns pictures. -/
def views (database : Database) (userRef : String) : List Card.View :=
  Node.views (database.get (DatabaseService.cardsPath userRef))

variable {database : Database} {userRef : String}

/-- A longer path reads a child of what the shorter one reads. -/
theorem get_concat (database : Database) (path : Path) (key : Key) :
    database.get (path ++ [key]) = (database.get path).child key :=
  KeyTree.get_append _ _ _

/-- A write to one record replaces one child of the folder of records. -/
theorem get_cardsPath_apply {write : DatabaseWrite} {key : Key}
    (addressed : write.path = DatabaseService.cardsPath userRef ++ [key]) :
    (database.apply write).get (DatabaseService.cardsPath userRef) =
      (database.get (DatabaseService.cardsPath userRef)).setChild key
        (write.replacement ((database.get (DatabaseService.cardsPath userRef)).child key)) := by
  -- The folder is read above the written record.
  rw [get_apply_above database addressed, addressed, get_concat]
  rfl

/-- The record of a listed card is the child of the folder under its uid. -/
theorem recordPath_text (userRef : String) (key : Key) :
    DatabaseService.recordPath userRef key.text = DatabaseService.cardsPath userRef ++ [key] := by
  -- A key is a single piece of the path.
  rw [DatabaseService.recordPath, pathWithString_text]

/-- Storing a new card under the last key adds it to the list. -/
theorem views_newCardRequest {name barcode : String} {autoId : PushId}
    (absent : (database.get (DatabaseService.cardsPath userRef ++ [autoId.key])).isEmpty = true)
    (latest : ∀ key : Key, key.text ∈ (database.views userRef).map Card.View.uid → key < autoId.key) :
    (database.apply (newCardRequest userRef name barcode autoId)).views userRef =
      (CardOperation.add ⟨autoId.text, name, barcode, none⟩).perform (database.views userRef) := by
  have canonical := database.canonical_get (DatabaseService.cardsPath userRef)
  rw [get_concat] at absent
  -- A later record that decodes would be listed.
  have later : ∀ entry ∈ (database.get (DatabaseService.cardsPath userRef)).entries,
      autoId.key < entry.1 → Card.ofSnapshot entry.1 entry.2 = none := by
    intro entry member above
    by_contra decodes
    obtain ⟨card, decoded⟩ := Option.ne_none_iff_exists'.mp decodes
    have listed : entry.1.text ∈ (database.views userRef).map Card.View.uid := by
      have inside : card ∈ Node.cards (database.get (DatabaseService.cardsPath userRef)) :=
        List.mem_filterMap.mpr ⟨entry, member, decoded⟩
      have uid := Card.uid_of_ofSnapshot decoded
      exact List.mem_map.mpr ⟨card.view, List.mem_map_of_mem inside, uid⟩
    exact absurd (latest entry.1 listed) above.not_gt
  rw [views, get_cardsPath_apply rfl]
  exact Node.views_setChild_of_absent canonical absent (Node.ofSnapshot_newCard name barcode) later

/-- Updating the record of a listed card edits it in the list. -/
theorem views_updateRequest {card : Card} {url : String}
    (listed : card.uid ∈ (database.views userRef).map Card.View.uid) :
    (database.apply (updateRequest userRef card url)).views userRef =
      (CardOperation.edit card.uid card.name card.barcode).perform (database.views userRef) := by
  have canonical := database.canonical_get (DatabaseService.cardsPath userRef)
  obtain ⟨key, uid, old, decodes⟩ := Node.exists_key_of_mem_views canonical listed
  have addressed : (updateRequest userRef card url).path =
      DatabaseService.cardsPath userRef ++ [key] := by
    rw [← recordPath_text, ← uid]
    rfl
  have decoded := @Node.ofSnapshot_update
    ((database.get (DatabaseService.cardsPath userRef)).child key) key card.name card.barcode url
  rw [views, get_cardsPath_apply addressed, views, CardOperation.perform, uid]
  refine Node.views_setChild_of_present canonical (Node.isEmpty_of_ofSnapshot decodes)
    (Node.isEmpty_of_ofSnapshot decoded) ?_
  -- The notes are those of the card decoded before.
  have notes : old.notesText =
      Node.string? (((database.get (DatabaseService.cardsPath userRef)).child key).child Key.notes) := by
    unfold Card.ofSnapshot at decodes
    split at decodes
    · cases decodes
      rfl
    · cases decodes
  have same : old.uid = key.text := Card.uid_of_ofSnapshot decodes
  show (Card.ofSnapshot key (Node.merge _ _)).map Card.view = _
  rw [decoded, decodes]
  simp only [Option.map_some, Card.view, notes, same]

/-- Writing notes into the record of a listed card adds them in the list. -/
theorem views_notesRequest {uid notes : String}
    (listed : uid ∈ (database.views userRef).map Card.View.uid) :
    (database.apply (notesRequest userRef uid notes)).views userRef =
      (CardOperation.addNotes uid notes).perform (database.views userRef) := by
  -- The record still decodes, to the same card with other notes.
  have canonical := database.canonical_get (DatabaseService.cardsPath userRef)
  obtain ⟨key, rfl, old, decodes⟩ := Node.exists_key_of_mem_views canonical listed
  have decoded := @Node.ofSnapshot_notes
    ((database.get (DatabaseService.cardsPath userRef)).child key) key notes
  rw [decodes] at decoded
  have addressed : (notesRequest userRef key.text notes).path =
      DatabaseService.cardsPath userRef ++ [key] := recordPath_text userRef key
  rw [views, get_cardsPath_apply addressed, views, CardOperation.perform]
  refine Node.views_setChild_of_present canonical (Node.isEmpty_of_ofSnapshot decodes)
    (Node.isEmpty_of_ofSnapshot decoded) ?_
  show (Card.ofSnapshot key (Node.merge _ _)).map Card.view = _
  rw [decoded, decodes]
  rfl

/-- Removing the record of a listed card deletes it from the list. -/
theorem views_removeRequest {uid : String}
    (listed : uid ∈ (database.views userRef).map Card.View.uid) :
    (database.apply (removeRequest userRef uid)).views userRef =
      (CardOperation.delete uid).perform (database.views userRef) := by
  -- Without its record a card is not listed.
  have canonical := database.canonical_get (DatabaseService.cardsPath userRef)
  obtain ⟨key, rfl, _⟩ := Node.exists_key_of_mem_views canonical listed
  have addressed : (removeRequest userRef key.text).path =
      DatabaseService.cardsPath userRef ++ [key] := recordPath_text userRef key
  rw [views, get_cardsPath_apply addressed]
  exact Node.views_setChild_empty _ key

end Database

/-- None of some uids equals a given one without being the same. -/
def Platform.TellsApart (platform : Platform) (uids : List String) (uid : String) : Prop :=
  ∀ other ∈ uids, platform.equals other uid = true → other = uid

instance (platform : Platform) (uids : List String) (uid : String) :
    Decidable (platform.TellsApart uids uid) :=
  inferInstanceAs (Decidable (∀ _ ∈ _, _ → _))

namespace HomeViewController

/-- The list of the home screen, without what concerns pictures. -/
def views (home : HomeViewController) : Option (List Card.View) :=
  home.loadedCards.map (List.map Card.view)

/-- The uids of the list are those of its views. -/
theorem uids_eq_of_views {home : HomeViewController} {cards : List Card.View}
    (listed : home.views = some cards) : home.uids = cards.map Card.View.uid := by
  -- A view keeps the uid of its card.
  obtain ⟨loaded, found, rfl⟩ := Option.map_eq_some_iff.mp listed
  rw [uids, found, Option.getD_some, List.map_map]
  rfl

/-- The list depends on the listed objects only. -/
theorem views_of_kept {home after : HomeViewController} (cards : after.cards = home.cards)
    (heap : after.heap = home.heap) : after.views = home.views := by
  rw [views, views, loadedCards_of_kept cards heap]

/-- Where uids are told apart, the listed cards with an equal uid are those with the uid itself. -/
private theorem equals_iff {platform : Platform} {home : HomeViewController} {uid : String}
    (apart : platform.TellsApart home.uids uid) {cards : List Card} (loaded : home.loadedCards = some cards)
    {card : Card} (listed : card ∈ cards) : platform.equals card.uid uid = true ↔ card.uid = uid := by
  constructor
  · refine apart card.uid ?_
    rw [uids, loaded, Option.getD_some]
    exact List.mem_map_of_mem listed
  · rintro rfl
    exact platform.equals_self card.uid

/-- Reporting an edited card edits it in the list, unless another uid equals its own. -/
theorem views_userDidUpdateData {platform : Platform} {home : HomeViewController} {card : Card}
    (apart : platform.TellsApart home.uids card.uid) :
    (home.userDidUpdateData platform card).views =
      home.views.map (CardOperation.edit card.uid card.name card.barcode).perform := by
  rw [views, loadedCards_userDidUpdateData, views]
  cases loaded : home.loadedCards with
  | none => rfl
  | some cards =>
    -- Picture and address are not compared.
    simp only [Option.map_some, List.map_map, CardOperation.perform, Option.some.injEq]
    refine List.map_congr_left fun listed member => ?_
    simp only [Function.comp_apply, equals_iff apart loaded member]
    by_cases concerned : listed.uid = card.uid
    · simp [Card.view, concerned]
    · simp [Card.view, concerned]

/-- Reporting notes adds them in the list, unless another uid equals that of the card. -/
theorem views_userDidAddNotes {platform : Platform} {home : HomeViewController} {card : Card}
    {notes : String} (apart : platform.TellsApart home.uids card.uid) (noted : card.notesText = some notes) :
    (home.userDidAddNotes platform card).views =
      home.views.map (CardOperation.addNotes card.uid notes).perform := by
  -- Every listed card with the uid gets the notes.
  rw [views, loadedCards_userDidAddNotes, views]
  cases loaded : home.loadedCards with
  | none => rfl
  | some cards =>
    simp only [Option.map_some, List.map_map, CardOperation.perform, Option.some.injEq]
    refine List.map_congr_left fun listed member => ?_
    simp only [Function.comp_apply, equals_iff apart loaded member]
    by_cases concerned : listed.uid = card.uid
    · simp [Card.view, concerned, noted]
    · simp [Card.view, concerned]

/-- Reporting a new card adds it to the list, if the list is loaded. -/
theorem views_userDidEnterCard {home : HomeViewController} (inUse : home.Allocated) (card : Card) :
    (home.userDidEnterCard card).views =
      home.views.map (CardOperation.add card.view).perform := by
  -- The new card comes last, in a new object.
  cases listed : home.cards with
  | none => simp [views, loadedCards, userDidEnterCard, listed]
  | some refs =>
    rw [views, loadedCards_userDidEnterCard listed inUse, views, loadedCards, listed]
    simp [CardOperation.perform]

end HomeViewController

end CardGuru
