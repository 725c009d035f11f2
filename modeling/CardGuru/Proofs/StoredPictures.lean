import CardGuru.App.Objects
import CardGuru.App.Scenario

/-! The stored pictures are the ones that the records point to, as long as every save and deletion
is made with the picture address that the record holds. -/

namespace CardGuru

namespace Server

/-- The addresses of the pictures in the storage folder of a user. -/
def pictureURLs (server : Server) (userRef : String) : List String :=
  (server.objects.filter fun stored => (standardizedPath userRef).isPrefixOf stored.path).map
    StoredObject.downloadURL

/-- The picture addresses in the records of a user. -/
def recordURLs (server : Server) (userRef : String) : List String :=
  (server.database.get (DatabaseService.cardsPath userRef)).entries.filterMap fun entry =>
    Node.string? (entry.2.child Key.absoluteURL)

/-- The stored pictures of a user are the ones that the records point to. -/
def PicturesMatch (server : Server) (userRef : String) : Prop :=
  ∀ url, url ∈ server.pictureURLs userRef ↔ url ∈ server.recordURLs userRef

/-- The picture address in the record with a key. -/
def recordURL (server : Server) (userRef : String) (key : Key) : Option String :=
  Node.string? ((server.database.get (DatabaseService.cardsPath userRef ++ [key])).child
    Key.absoluteURL)

variable {server after : Server} {userRef url : String} {key other : Key}

theorem mem_pictureURLs : url ∈ server.pictureURLs userRef ↔
    ∃ stored ∈ server.objects, standardizedPath userRef <+: stored.path ∧
      stored.downloadURL = url := by
  simp [pictureURLs, List.isPrefixOf_iff_prefix, and_assoc]

theorem mem_recordURLs : url ∈ server.recordURLs userRef ↔
    ∃ key, server.recordURL userRef key = some url := by
  have canonical := server.database.canonical_get (DatabaseService.cardsPath userRef)
  simp only [recordURLs, List.mem_filterMap, recordURL, Database.get_concat]
  constructor
  · intro stored
    obtain ⟨⟨key, record⟩, member, points⟩ := stored
    exact ⟨key, by rw [canonical.child_of_mem member]; exact points⟩
  · intro pointing
    obtain ⟨key, points⟩ := pointing
    -- A record that points somewhere is not empty.
    have present : ((server.database.get (DatabaseService.cardsPath userRef)).child key).isEmpty =
        false := by
      by_contra nothing
      rw [Bool.not_eq_false, KeyTree.isEmpty_iff] at nothing
      simp [nothing] at points
    exact ⟨_, KeyTree.mem_entries_of_child present, points⟩

/-- The written record points to what the write leaves there. -/
theorem recordURL_perform_self {write : DatabaseWrite} (done : server.perform write = .ok after)
    (addressed : write.path = DatabaseService.cardsPath userRef ++ [key]) :
    after.recordURL userRef key =
      Node.string? ((write.replacement (server.database.get write.path)).child Key.absoluteURL) := by
  -- The write replaces this record and nothing else of its place.
  obtain rfl := perform_ok done
  simp only [recordURL, ← addressed, Database.get_apply_self]

/-- All other records point to where they pointed. -/
theorem recordURL_perform_ne {write : DatabaseWrite} (done : server.perform write = .ok after)
    (addressed : write.path = DatabaseService.cardsPath userRef ++ [key]) (different : other ≠ key) :
    after.recordURL userRef other = server.recordURL userRef other := by
  -- Other children of the folder are kept.
  obtain rfl := perform_ok done
  simp only [recordURL, Database.get_concat, Database.get_cardsPath_apply addressed,
    KeyTree.child_setChild_ne _ different]

/-- A database write leaves the stored objects alone. -/
theorem objects_perform {write : DatabaseWrite} (done : server.perform write = .ok after) :
    after.objects = server.objects := by
  rw [perform_ok done]

/-- The pictures of a user are the ones that the records point to, one record excepted. -/
structure Pictured (platform : Platform) (userRef : String) (excepted : Option Key)
    (server : Server) : Prop where
  /-- The address of an object names it. -/
  named : ∀ stored ∈ server.objects,
    platform.referenceForURL stored.downloadURL = .ok stored.path
  /-- There is one object at a path. -/
  paths : (server.objects.map StoredObject.path).Nodup
  /-- No address is shared by two records. -/
  distinct : ∀ first second url, server.recordURL userRef first = some url →
    server.recordURL userRef second = some url → first = second
  matching : ∀ url, url ∈ server.pictureURLs userRef ↔
    ∃ key, excepted ≠ some key ∧ server.recordURL userRef key = some url

variable {platform : Platform}

/-- Without an exception the addresses are the same. -/
theorem Pictured.picturesMatch (pictured : Pictured platform userRef none server) :
    server.PicturesMatch userRef := by
  intro url
  rw [pictured.matching url, mem_recordURLs]
  simp

/-- Deleting the picture that a record points to excepts the record. -/
theorem Pictured.release {edit : EditCardTableViewController} {cleaned : Server}
    (pictured : Pictured platform userRef none server)
    (rejected : ∀ path, platform.referenceForURL "" ≠ .ok path)
    (carried : edit.absoluteURL = (server.recordURL userRef key).getD "")
    (removed : edit.removeOldCard platform server = .ok cleaned) :
    Pictured platform userRef (some key) cleaned ∧ ∀ stored ∈ cleaned.objects, stored ∈ server.objects := by
  have pointed : ∀ url, url ∈ server.pictureURLs userRef ↔
      ∃ key, server.recordURL userRef key = some url := by
    intro url
    simpa using pictured.matching url
  unfold EditCardTableViewController.removeOldCard at removed
  cases points : server.recordURL userRef key with
  | none =>
    -- There is nothing to delete.
    rw [points] at carried
    simp only [carried, Option.getD_none] at removed
    cases removed
    refine ⟨⟨pictured.named, pictured.paths, pictured.distinct, fun url => ?_⟩, fun _ inside => inside⟩
    rw [pointed url]
    constructor
    · intro record
      obtain ⟨other, found⟩ := record
      refine ⟨other, ?_, found⟩
      intro same
      rw [← Option.some.inj same, points] at found
      cases found
    · intro record
      obtain ⟨other, _, found⟩ := record
      exact ⟨other, found⟩
  | some old =>
    rw [points] at carried
    obtain ⟨object, stored, folder, address⟩ := mem_pictureURLs.mp ((pointed old).mpr ⟨key, points⟩)
    have named := pictured.named object stored
    rw [address] at named
    have proper : edit.absoluteURL.isEmpty = false := by
      by_contra empty
      have nothing : edit.absoluteURL = "" := by simpa using empty
      rw [nothing, Option.getD_some] at carried
      rw [← carried] at named
      exact rejected object.path named
    rw [proper] at removed
    obtain ⟨path, located, rfl⟩ := DatabaseService.removeImageFromStorage_ok removed
    have deleted : path = object.path := by
      rw [carried, Option.getD_some, named] at located
      exact (Except.ok.inj located).symm
    have kept : ∀ other ∈ (server.delete path).objects, other ∈ server.objects := fun other inside =>
      List.mem_of_mem_filter inside
    refine ⟨⟨fun other inside => pictured.named other (kept other inside), ?_, pictured.distinct, ?_⟩,
      kept⟩
    · exact pictured.paths.sublist (List.Sublist.map _ List.filter_sublist)
    · intro url
      constructor
      · intro present
        obtain ⟨other, inside, below, same⟩ := mem_pictureURLs.mp present
        obtain ⟨record, found⟩ := (pointed url).mp
          (mem_pictureURLs.mpr ⟨other, kept other inside, below, same⟩)
        refine ⟨record, ?_, found⟩
        -- The record of the deleted picture points to no other object.
        intro excepted
        obtain rfl := Option.some.inj excepted
        rw [points] at found
        obtain rfl := Option.some.inj found
        have again := pictured.named other (kept other inside)
        rw [same, named] at again
        have apart : other.path ≠ path := by simpa using (List.mem_filter.mp inside).2
        exact apart (deleted ▸ (Except.ok.inj again).symm)
      · intro record
        obtain ⟨own, different, found⟩ := record
        obtain ⟨other, inside, below, same⟩ := mem_pictureURLs.mp ((pointed url).mpr ⟨own, found⟩)
        refine mem_pictureURLs.mpr ⟨other, List.mem_filter.mpr ⟨inside, ?_⟩, below, same⟩
        -- Another object at the deleted path would be the deleted one.
        have apart : other.path ≠ path := by
          intro samePath
          have identical : other = object :=
            List.inj_on_of_nodup_map pictured.paths inside stored (samePath.trans deleted)
          rw [identical, address] at same
          rw [← same] at found
          exact different (congrArg some (pictured.distinct key own old points found))
        simpa using apart

/-- A write that leaves the address of its record keeps the pictures as they are. -/
theorem Pictured.of_unchanged {excepted : Option Key} {write : DatabaseWrite}
    (pictured : Pictured platform userRef excepted server) (done : server.perform write = .ok after)
    (addressed : write.path = DatabaseService.cardsPath userRef ++ [key])
    (unchanged : after.recordURL userRef key = server.recordURL userRef key) :
    Pictured platform userRef excepted after := by
  have objects := objects_perform done
  -- No record points elsewhere after the write.
  have same : ∀ other, after.recordURL userRef other = server.recordURL userRef other := by
    intro other
    by_cases own : other = key
    · rw [own]
      exact unchanged
    · exact recordURL_perform_ne done addressed own
  refine ⟨?_, ?_, ?_, ?_⟩
  · rw [objects]
    exact pictured.named
  · rw [objects]
    exact pictured.paths
  · simpa only [same] using pictured.distinct
  · intro url
    simpa only [same, pictureURLs, objects] using pictured.matching url

/-- A deleted record no longer needs to be excepted. -/
theorem Pictured.of_removed {write : DatabaseWrite}
    (pictured : Pictured platform userRef (some key) server)
    (done : server.perform write = .ok after)
    (addressed : write.path = DatabaseService.cardsPath userRef ++ [key])
    (pointless : after.recordURL userRef key = none) : Pictured platform userRef none after := by
  have objects := objects_perform done
  -- The other records point to where they pointed, and the deleted one to nothing.
  have others : ∀ other url, after.recordURL userRef other = some url →
      other ≠ key ∧ server.recordURL userRef other = some url := by
    intro other url points
    have different : other ≠ key := by
      rintro rfl
      rw [pointless] at points
      cases points
    rw [recordURL_perform_ne done addressed different] at points
    exact ⟨different, points⟩
  refine ⟨?_, ?_, ?_, ?_⟩
  · rw [objects]
    exact pictured.named
  · rw [objects]
    exact pictured.paths
  · intro first second url firstPoints secondPoints
    exact pictured.distinct first second url (others first url firstPoints).2
      (others second url secondPoints).2
  · intro url
    rw [pictureURLs, objects, ← pictureURLs, pictured.matching url]
    constructor
    · intro record
      obtain ⟨other, different, points⟩ := record
      have apart : other ≠ key := fun same => different (congrArg some same.symm)
      exact ⟨other, by simp, by rw [recordURL_perform_ne done addressed apart]; exact points⟩
    · intro record
      obtain ⟨other, _, points⟩ := record
      obtain ⟨different, before⟩ := others other url points
      exact ⟨other, fun same => different (Option.some.inj same).symm, before⟩

/-- Storing a new picture and writing its address into the excepted record completes the match. -/
theorem Pictured.of_stored {write : DatabaseWrite} {object : StoredObject}
    (pictured : Pictured platform userRef (some key) server)
    (fresh : ∀ stored ∈ server.objects, stored.path ≠ object.path)
    (folder : standardizedPath userRef <+: object.path)
    (named : platform.referenceForURL object.downloadURL = .ok object.path)
    (done : (server.putData object).perform write = .ok after)
    (addressed : write.path = DatabaseService.cardsPath userRef ++ [key])
    (points : after.recordURL userRef key = some object.downloadURL) :
    Pictured platform userRef none after := by
  have objects : after.objects = server.objects ++ [object] := by
    rw [objects_perform done, putData]
    simp only [List.append_cancel_right_eq, List.filter_eq_self]
    intro stored inside
    simpa using fresh stored inside
  have others : ∀ other, other ≠ key →
      after.recordURL userRef other = server.recordURL userRef other := by
    intro other different
    have kept := recordURL_perform_ne done addressed different
    exact kept
  -- No other record points to the new picture, since every address names an older object.
  have unshared : ∀ other, other ≠ key → after.recordURL userRef other ≠ some object.downloadURL := by
    intro other different found
    rw [others other different] at found
    have present := (pictured.matching object.downloadURL).mpr
      ⟨other, fun same => different (Option.some.inj same).symm, found⟩
    obtain ⟨stored, inside, _, same⟩ := mem_pictureURLs.mp present
    have own := pictured.named stored inside
    rw [same, named] at own
    exact fresh stored inside (Except.ok.inj own).symm
  refine ⟨?_, ?_, ?_, ?_⟩
  · rw [objects]
    intro stored inside
    rcases List.mem_append.mp inside with old | new
    · exact pictured.named stored old
    · rw [List.mem_singleton.mp new]
      exact named
  · rw [objects, List.map_append]
    refine List.Nodup.append pictured.paths (List.nodup_singleton _) ?_
    intro path old new
    obtain ⟨stored, inside, rfl⟩ := List.mem_map.mp old
    exact fresh stored inside (List.mem_singleton.mp new)
  · intro first second url firstPoints secondPoints
    by_cases firstOwn : first = key
    · by_cases secondOwn : second = key
      · rw [firstOwn, secondOwn]
      · rw [firstOwn, points] at firstPoints
        obtain rfl := Option.some.inj firstPoints
        exact absurd secondPoints (unshared second secondOwn)
    · by_cases secondOwn : second = key
      · rw [secondOwn, points] at secondPoints
        obtain rfl := Option.some.inj secondPoints
        exact absurd firstPoints (unshared first firstOwn)
      · rw [others first firstOwn] at firstPoints
        rw [others second secondOwn] at secondPoints
        exact pictured.distinct first second url firstPoints secondPoints
  · intro url
    have split : url ∈ after.pictureURLs userRef ↔
        url ∈ server.pictureURLs userRef ∨ url = object.downloadURL := by
      rw [mem_pictureURLs, mem_pictureURLs, objects]
      constructor
      · intro present
        obtain ⟨stored, inside, below, same⟩ := present
        rcases List.mem_append.mp inside with old | new
        · exact .inl ⟨stored, old, below, same⟩
        · rw [List.mem_singleton.mp new] at same
          exact .inr same.symm
      · intro present
        rcases present with ⟨stored, old, below, same⟩ | rfl
        · exact ⟨stored, List.mem_append_left _ old, below, same⟩
        · exact ⟨object, List.mem_concat_self, folder, rfl⟩
    rw [split, pictured.matching url]
    constructor
    · intro present
      rcases present with ⟨other, different, found⟩ | rfl
      · have apart : other ≠ key := fun same => different (congrArg some same.symm)
        exact ⟨other, by simp, by rw [others other apart]; exact found⟩
      · exact ⟨key, by simp, points⟩
    · intro record
      obtain ⟨other, _, found⟩ := record
      by_cases own : other = key
      · rw [own, points] at found
        exact .inr (Option.some.inj found).symm
      · rw [others other own] at found
        exact .inl ⟨other, fun same => own (Option.some.inj same).symm, found⟩

end Server

namespace App

/-- The edit screen carries the picture address that the record of its card holds. -/
def carriesRecordURL (userRef : String) (app : App) : Bool :=
  match app.screen with
  | .edit edit _ =>
    edit.absoluteURL = (Node.string? ((app.server.database.get
      (DatabaseService.recordPath userRef edit.uid)).child Key.absoluteURL)).getD ""
  | _ => true

/-- A save with filled fields or a deletion is made with the picture address of the record. -/
def usesRecordURL (userRef : String) (app : App) : Action → Bool
  | .saveCard name barcode _ _ =>
    !EditCardTableViewController.isEnteredDataValid name barcode || app.carriesRecordURL userRef
  | .deleteCard => app.carriesRecordURL userRef
  | _ => true

/-- The carried address is that of the record with the key of the card. -/
theorem recordURL_of_carries {userRef : String} {app : App} {edit : EditCardTableViewController}
    {detailed : DetailedViewController} {key : Key} (shown : app.screen = .edit edit detailed)
    (uid : edit.uid = key.text) (carries : app.carriesRecordURL userRef = true) :
    edit.absoluteURL = (app.server.recordURL userRef key).getD "" := by
  simp only [carriesRecordURL, shown, decide_eq_true_eq] at carries
  rw [carries, uid, Database.recordPath_text, Server.recordURL]

/-- How the stored pictures relate to the records between operations and during a save. -/
inductive PicturePhase (platform : Platform) (userRef : String) (app : App) : Prop where
  /-- Without a pending upload they match. -/
  | idle (uploads : app.uploads = []) (pictured : app.server.Pictured platform userRef none)
  /-- During an upload the record of the saved card is excepted. -/
  | saving {upload : Upload} {key : Key} (uploads : app.uploads = [upload])
    (uid : upload.card.uid = key.text)
    (fresh : ∀ stored ∈ app.server.objects, stored.path ≠ upload.path)
    (folder : standardizedPath userRef <+: upload.path)
    (pictured : app.server.Pictured platform userRef (some key))

/-- What holds while operations are made one after the other. -/
structure KeepsPictures (platform : Platform) (userRef : String) (app : App) : Prop where
  current : DatabaseService.getCurrentUserRef app.defaults = some userRef
  keyed : app.Keyed
  phase : PicturePhase platform userRef app

variable {platform : Platform} {app after final : App} {history : List (App × Action)}
  {userRef : String}

/-- Without a pending upload the pictures match. -/
theorem PicturePhase.pictured (phase : PicturePhase platform userRef app) (idle : app.uploads = []) :
    app.server.Pictured platform userRef none := by
  -- While a card is saved an upload is pending.
  cases phase with
  | idle _ pictured => exact pictured
  | saving uploads _ _ _ _ => simp [idle] at uploads

/-- Steps that change neither the server nor the uploads keep the phase. -/
theorem PicturePhase.of_kept (phase : PicturePhase platform userRef app)
    (server : after.server = app.server) (uploads : after.uploads = app.uploads) :
    PicturePhase platform userRef after := by
  -- Both phases speak of the server and the uploads only.
  cases phase with
  | idle none pictured => exact .idle (uploads.trans none) (server ▸ pictured)
  | saving one uid fresh folder pictured =>
    exact .saving (uploads.trans one) uid (server ▸ fresh) folder (server ▸ pictured)

/-- A new record points to no picture, and neither did the absent one. -/
private theorem pictured_saveCard {server : Server} {name barcode cardId : String}
    {autoId : PushId} (pictured : app.server.Pictured platform userRef none)
    (current : DatabaseService.getCurrentUserRef app.defaults = some userRef)
    (fresh : app.isFreshId autoId = true)
    (stored : DatabaseService.saveCard app.defaults app.server
      [(Key.name, .string name), (Key.barcode, .string barcode)] autoId = .ok (server, cardId)) :
    server.Pictured platform userRef none := by
  rcases DatabaseService.saveCard_ok stored with ⟨nobody, _⟩ | ⟨other, found, _, written⟩
  · simp [current] at nobody
  obtain rfl : userRef = other := Option.some.inj (current.symm.trans found)
  refine pictured.of_unchanged written rfl ?_
  simp only [isFreshId, current, Bool.and_eq_true] at fresh
  have before : app.server.recordURL userRef autoId.key = none := by
    rw [Server.recordURL, KeyTree.isEmpty_iff.mp fresh.1]
    rfl
  rw [before, Server.recordURL_perform_self written rfl]
  -- Name and barcode are other fields than the address.
  have fields : ∀ field ∈ [(Key.name, some (Leaf.string name)),
      (Key.barcode, some (Leaf.string barcode))], field.1 ≠ Key.absoluteURL := by
    intro field member
    rcases List.mem_cons.mp member with rfl | member
    · exact (by decide : Key.name ≠ Key.absoluteURL)
    · rw [List.mem_singleton.mp member]
      exact (by decide : Key.barcode ≠ Key.absoluteURL)
  show Node.string? ((Node.merge .empty [(Key.name, some (.string name)),
    (Key.barcode, some (.string barcode))]).child Key.absoluteURL) = none
  rw [Node.child_merge_of_not_mem fields]
  rfl

/-- New notes do not concern the picture of a record. -/
private theorem pictured_addNotes {server : Server} {card : Card} {key : Key}
    (pictured : app.server.Pictured platform userRef none) (uid : card.uid = key.text)
    (current : DatabaseService.getCurrentUserRef app.defaults = some userRef)
    (written : DatabaseService.addNotesToDb app.defaults app.server card = .ok server) :
    server.Pictured platform userRef none := by
  rcases DatabaseService.onRecord_ok written with ⟨nobody, _⟩ | ⟨other, found, _, done⟩
  · simp [current] at nobody
  obtain rfl : userRef = other := Option.some.inj (current.symm.trans found)
  -- The notes are merged into the record of the card.
  have place : DatabaseService.recordPath userRef card.uid =
      DatabaseService.cardsPath userRef ++ [key] := by
    rw [uid]
    exact Database.recordPath_text userRef key
  refine pictured.of_unchanged done place ?_
  rw [Server.recordURL_perform_self done place, Server.recordURL, ← place]
  show Node.string? ((Node.merge _ _).child Key.absoluteURL) = _
  rw [Node.child_merge_of_not_mem]
  · rfl
  · intro field member
    rw [List.mem_singleton.mp member]
    exact (by decide : Key.notes ≠ Key.absoluteURL)

/-- A deletion removes the picture and then the record. -/
private theorem pictured_deleteCard {edit : EditCardTableViewController} {cleaned server : Server}
    {key : Key} (pictured : app.server.Pictured platform userRef none)
    (rejected : ∀ path, platform.referenceForURL "" ≠ .ok path) (uid : edit.uid = key.text)
    (current : DatabaseService.getCurrentUserRef app.defaults = some userRef)
    (carried : edit.absoluteURL = (app.server.recordURL userRef key).getD "")
    (removed : edit.removeOldCard platform app.server = .ok cleaned)
    (deleted : DatabaseService.removeDataFromDb app.defaults cleaned edit.uid = .ok server) :
    server.Pictured platform userRef none := by
  have place : DatabaseService.recordPath userRef edit.uid =
      DatabaseService.cardsPath userRef ++ [key] := by
    rw [uid]
    exact Database.recordPath_text userRef key
  -- First the picture goes, and the record is excepted until it goes too.
  obtain ⟨released, _⟩ := pictured.release rejected carried removed
  rcases DatabaseService.onRecord_ok deleted with ⟨nobody, _⟩ | ⟨other, found, _, done⟩
  · simp [current] at nobody
  obtain rfl : userRef = other := Option.some.inj (current.symm.trans found)
  refine released.of_removed done place ?_
  rw [Server.recordURL_perform_self done place]
  rfl

/-- A delivered address is written into the record of the saved card. -/
private theorem pictured_uploadStored {upload : Upload} {server : Server} {key : Key} {url : String}
    (pictured : app.server.Pictured platform userRef (some key))
    (uid : upload.card.uid = key.text)
    (fresh : ∀ stored ∈ app.server.objects, stored.path ≠ upload.path)
    (folder : standardizedPath userRef <+: upload.path)
    (current : DatabaseService.getCurrentUserRef app.defaults = some userRef)
    (named : platform.referenceForURL url = .ok upload.path)
    (written : DatabaseService.updateDataInDb app.defaults
      (app.server.putData ⟨upload.path, upload.data, url⟩)
      { upload.card with absoluteURL := some url } = .ok server) :
    server.Pictured platform userRef none := by
  rcases DatabaseService.onRecord_ok written with ⟨nobody, _⟩ | ⟨other, found, _, done⟩
  · simp [current] at nobody
  obtain rfl : userRef = other := Option.some.inj (current.symm.trans found)
  have place : DatabaseService.recordPath userRef upload.card.uid =
      DatabaseService.cardsPath userRef ++ [key] := by
    rw [uid]
    exact Database.recordPath_text userRef key
  -- The new address is the one excepted, and now points to the new picture.
  refine pictured.of_stored (fun stored inside => fresh stored inside) folder named done place ?_
  rw [Server.recordURL_perform_self done place]
  show Node.string? ((Node.merge _ _).child Key.absoluteURL) = some url
  simp

/-- Every step of a sequence of operations with current addresses keeps the pictures. -/
private theorem keepsPictures_step {action : Action}
    (keeping : KeepsPictures platform userRef app)
    (rejected : ∀ path, platform.referenceForURL "" ≠ .ok path)
    (sequential : app.sequential action = true) (uses : app.usesRecordURL userRef action = true)
    (stepped : Steps platform app action after) : KeepsPictures platform userRef after := by
  have current := keeping.current
  have keyed := keeping.keyed.step current stepped
  -- Steps that neither write nor upload keep the phase.
  cases stepped with
  | snapshotRead asked => exact ⟨current, keyed, keeping.phase.of_kept rfl rfl⟩
  | loadDelivered found answered => exact ⟨current, keyed, keeping.phase.of_kept rfl rfl⟩
  | searchChanged shown => exact ⟨current, keyed, keeping.phase.of_kept rfl rfl⟩
  | addCardSegue shown => exact ⟨current, keyed, keeping.phase.of_kept rfl rfl⟩
  | cellSegue shown inside filled => exact ⟨current, keyed, keeping.phase.of_kept rfl rfl⟩
  | editSegue shown => exact ⟨current, keyed, keeping.phase.of_kept rfl rfl⟩
  | backToDetail shown => exact ⟨current, keyed, keeping.phase.of_kept rfl rfl⟩
  | backToRoot shown => exact ⟨current, keyed, keeping.phase.of_kept rfl rfl⟩
  | addNewCardAlert shown missing => exact keeping
  | saveCardAlert shown missing => exact keeping
  | scanned shown fresh stored =>
    have quiet : app.Quiet := of_decide_eq_true sequential
    have pictured := pictured_saveCard (keeping.phase.pictured quiet.1) current fresh stored
    exact ⟨current, keyed, .idle quiet.1 pictured⟩
  | addNewCard shown filled fresh stored =>
    have quiet : app.Quiet := of_decide_eq_true sequential
    have pictured := pictured_saveCard (keeping.phase.pictured quiet.1) current fresh stored
    exact ⟨current, keyed, .idle quiet.1 pictured⟩
  | @saveNotesClicked detailed server text shown written =>
    obtain ⟨quiet, listed⟩ := listed_of_operates sequential
    obtain ⟨key, uid⟩ := keeping.keyed.of_mem_uids (listed detailed.uid (by simp [shownUid, shown]))
    have pictured := pictured_addNotes (keeping.phase.pictured quiet.1) uid current written
    exact ⟨current, keyed, .idle quiet.1 pictured⟩
  | @saveCard edit detailed server name barcode uuid image shown filled fresh removed =>
    obtain ⟨quiet, listed⟩ := listed_of_operates sequential
    obtain ⟨key, uid⟩ := keeping.keyed.of_mem_uids (listed edit.uid (by simp [shownUid, shown]))
    have carried := recordURL_of_carries shown uid (by simpa [usesRecordURL, filled] using uses)
    obtain ⟨released, older⟩ :=
      (keeping.phase.pictured quiet.1).release rejected carried removed
    -- The old picture is gone, and the new one is the only pending upload.
    let upload : Upload :=
      { task := app.nextTask, path := standardizedPath userRef ++ [uuid ++ ".png"]
        data := DatabaseService.imageData image, card := Card.make edit.uid name barcode image }
    have uploads : (app.saved platform detailed server (Card.make edit.uid name barcode image)
        (DatabaseService.saveCardImage app.defaults image uuid)).uploads = [upload] := by
      simp [saved, quiet.1, DatabaseService.saveCardImage, current, upload]
    have unused : ∀ stored ∈ app.server.objects, stored.path ≠ upload.path := by
      simp only [isFreshUpload, DatabaseService.saveCardImage, current, Option.map_some,
        Option.all_some, Bool.and_eq_true, List.all_eq_true, decide_eq_true_eq] at fresh
      exact fresh.2
    exact ⟨current, keyed, .saving uploads uid (fun stored inside => unused stored (older stored inside))
      (List.prefix_append _ _) released⟩
  | @deleteCard edit detailed cleaned server shown removed deleted =>
    obtain ⟨quiet, listed⟩ := listed_of_operates sequential
    obtain ⟨key, uid⟩ := keeping.keyed.of_mem_uids (listed edit.uid (by simp [shownUid, shown]))
    have pictured := pictured_deleteCard (keeping.phase.pictured quiet.1) rejected uid current
      (recordURL_of_carries shown uid uses) removed deleted
    refine ⟨?_, keyed, .idle ?_ ?_⟩
    · simpa [popToRoot] using current
    · simpa [popToRoot] using quiet.1
    · simpa [popToRoot] using pictured
  | @uploadStored task upload url server found named written =>
    have member := List.mem_of_find?_eq_some found
    have numbered : upload.task = task := by simpa using List.find?_some found
    cases keeping.phase with
    | idle uploads _ => simp [uploads] at member
    | saving uploads uid fresh folder pictured =>
      rename_i pending key
      obtain rfl : upload = pending := by simpa [uploads] using member
      have stored := pictured_uploadStored pictured uid fresh folder current named written
      exact ⟨current, keyed, .idle (by simp [uploads, numbered]) stored⟩
  | homeViewDidLoad => cases sequential
  | signedIn shown => cases sequential
  | logoutPressed shown => cases sequential
  | launch => cases sequential
  | uploadFailed found => cases sequential
  | downloadURLFailed found named => cases sequential

/-- Between the operations of a run that follows the first load, the stored pictures are the ones
that the records point to, if every save and deletion is made with the address of the record. -/
theorem pictures_match {server : Server} {defaults : UserDefaults} {loaded : App}
    (rejected : ∀ path, platform.referenceForURL "" ≠ .ok path)
    (named : ∀ stored ∈ server.objects,
      platform.referenceForURL stored.downloadURL = .ok stored.path)
    (paths : (server.objects.map StoredObject.path).Nodup)
    (unshared : ∀ first second url, server.recordURL userRef first = some url →
      server.recordURL userRef second = some url → first = second)
    (matching : server.PicturesMatch userRef)
    (current : DatabaseService.getCurrentUserRef defaults = some userRef)
    (loading : Run.exec (App.next platform) (App.launched server defaults) firstLoad = some loaded)
    (run : Run (App.next platform) loaded history final)
    (sequential : Run.Within (fun app action => app.sequential action = true) history)
    (uses : Run.Within (fun app action => app.usesRecordURL userRef action = true) history) :
    ∀ state ∈ Run.states history final, state.uploads = [] → state.server.PicturesMatch userRef := by
  -- The first load delivers cards whose uids are keys of records.
  have initially : KeepsPictures platform userRef loaded := by
    obtain rfl := loaded_of_firstLoad current loading
    have objects := (@HomeViewController.objects_new (fun card => IsKey card.uid) 1)
    have read : ∀ card ∈ Node.cards (server.database.get (DatabaseService.cardsPath userRef)),
        IsKey card.uid := fun card listed =>
      Node.exists_key_of_mem_uids (List.mem_map_of_mem listed)
    have pictured : server.Pictured platform userRef none := by
      refine ⟨named, paths, unshared, fun url => ?_⟩
      rw [matching url, Server.mem_recordURLs]
      simp
    exact ⟨current, ⟨objects.loadCompletion true read, by simp [launched]⟩, .idle rfl pictured⟩
  have both : Run.Within (fun app action => app.sequential action = true ∧
      app.usesRecordURL userRef action = true) history :=
    fun entry member => ⟨sequential entry member, uses entry member⟩
  -- Step by step; the invariant excepts the record of a card that is being saved.
  have kept : ∀ {state after : App} {action : Action}, KeepsPictures platform userRef state →
      state.sequential action = true ∧ state.usesRecordURL userRef action = true →
      state.next platform action = some after → KeepsPictures platform userRef after :=
    fun keeping conditions taken =>
      keepsPictures_step keeping rejected conditions.1 conditions.2 (steps_of_next taken)
  intro state member idle
  have keeping := run.invariant_states kept initially both state member
  exact (keeping.phase.pictured idle).picturesMatch

/-- A card is added and then saved with a picture. -/
def Scenario.firstPicture : List Action :=
  Scenario.addition Scenario.firstId ++
    [.cellSegue 0, .editSegue, .saveCard "Aldi" "456" (.photo 1) "U1",
      .uploadFinished 1 (.stored (Scenario.urlOf "U1"))]

/-- The card is opened again and saved with another picture. -/
def Scenario.secondPicture : List Action :=
  Scenario.firstPicture ++
    [.back, .cellSegue 0, .editSegue, .saveCard "Aldi" "456" (.photo 2) "U2",
      .uploadFinished 2 (.stored (Scenario.urlOf "U2"))]

/-- Nothing is stored at first, and no record exists. -/
private theorem emptyServer_picturesMatch : Scenario.emptyServer.PicturesMatch "anna@mail_com" := by
  have stored : Scenario.emptyServer.pictureURLs "anna@mail_com" = [] := by decide +kernel
  have pointed : Scenario.emptyServer.recordURLs "anna@mail_com" = [] := by decide +kernel
  intro url
  rw [stored, pointed]

/-- After its first save a card points to the only stored picture. -/
theorem pictures_match_firstPicture :
    ∃ loaded final, Scenario.emptyLoaded = some loaded ∧
      Run (App.next Platform.ascii) loaded (Scenario.history loaded Scenario.firstPicture) final ∧
      final.server.PicturesMatch "anna@mail_com" := by
  have possible : Scenario.emptyLoaded.any (fun loaded =>
      (Scenario.reached loaded Scenario.firstPicture).any (fun final => final.uploads = []) &&
        (Scenario.history loaded Scenario.firstPicture).all fun entry =>
          entry.1.sequential entry.2 && entry.1.usesRecordURL "anna@mail_com" entry.2) = true := by
    decide +kernel
  obtain ⟨loaded, loading, facts⟩ := (Option.any_eq_true _ _).mp possible
  simp only [Bool.and_eq_true, List.all_eq_true, Option.any_eq_true, decide_eq_true_eq] at facts
  obtain ⟨⟨final, ends, idle⟩, steps⟩ := facts
  have run := Scenario.run_of_ends ends
  have current : DatabaseService.getCurrentUserRef Scenario.annaSignedIn =
      some "anna@mail_com" := by decide
  -- The empty address is no storage address.
  have rejected : ∀ path, Platform.ascii.referenceForURL "" ≠ .ok path := by
    have raises : Platform.ascii.referenceForURL "" = .error (.invalidStorageURL "") := by
      decide +kernel
    intro path
    rw [raises]
    exact fun same => by cases same
  have nowhere : ∀ key, Scenario.emptyServer.recordURL "anna@mail_com" key = none := by
    intro key
    rw [Server.recordURL, Database.get]
    show Node.string? ((KeyTree.get .empty _).child Key.absoluteURL) = none
    rw [KeyTree.get_empty]
    rfl
  refine ⟨loaded, final, loading, run, ?_⟩
  exact pictures_match rejected (by simp [Scenario.emptyServer]) (by simp [Scenario.emptyServer])
    (fun first second url points => by simp [nowhere] at points) emptyServer_picturesMatch current loading run
    (fun entry member => (steps entry member).1) (fun entry member => (steps entry member).2) final
    (by simp [Run.states]) idle

/-- After its second save a card has left the first picture behind. -/
theorem first_picture_left :
    ¬ ∀ (server : Server) (defaults : UserDefaults) (userRef : String) (loaded final : App)
        (history : List (App × Action)),
        server.objects = [] → server.PicturesMatch userRef →
        DatabaseService.getCurrentUserRef defaults = some userRef →
        Run.exec (App.next Platform.ascii) (App.launched server defaults) firstLoad = some loaded →
        Run (App.next Platform.ascii) loaded history final →
        Run.Within (fun app action => app.sequential action = true) history →
        final.uploads = [] → final.server.PicturesMatch userRef := by
  intro always
  -- The second save asks for no deletion, as its screen carries no address.
  have possible : Scenario.emptyLoaded.any (fun loaded =>
      (Scenario.reached loaded Scenario.secondPicture).any (fun final =>
        final.uploads = [] ∧ Scenario.urlOf "U1" ∈ final.server.pictureURLs "anna@mail_com" ∧
          Scenario.urlOf "U1" ∉ final.server.recordURLs "anna@mail_com") &&
        (Scenario.history loaded Scenario.secondPicture).all fun entry =>
          entry.1.sequential entry.2) = true := by
    decide +kernel
  obtain ⟨loaded, loading, facts⟩ := (Option.any_eq_true _ _).mp possible
  simp only [Bool.and_eq_true, List.all_eq_true, Option.any_eq_true, decide_eq_true_eq] at facts
  obtain ⟨⟨final, ends, idle, stored, unreferenced⟩, steps⟩ := facts
  have matched := always Scenario.emptyServer Scenario.annaSignedIn "anna@mail_com" loaded final _
    rfl emptyServer_picturesMatch (by decide) loading (Scenario.run_of_ends ends) steps idle
  exact unreferenced ((matched _).mp stored)

end App

end CardGuru
