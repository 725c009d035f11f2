import CardGuru.App.Scenario
import CardGuru.App.Views
import CardGuru.Services.DatabaseOperation

/-! The operations of one user leave what another user finds as it is exactly if the paths made from
their e-mail addresses lie apart. -/

namespace CardGuru

namespace DatabaseService

variable {platform : Platform} {defaults reader : UserDefaults} {server after : Server}
  {first second : String} {record field : Key}

/-- A user finds the same on two servers: the same loaded cards and the same storage folder. -/
def SameFor (defaults : UserDefaults) (user : User) (server after : Server) : Prop :=
  loadedCards (defaults.save user) after = loadedCards (defaults.save user) server ∧
    storageFolder (userKey user.email) after = storageFolder (userKey user.email) server

/-- Two servers hold the same in the records and in the storage folder of a user. -/
def SamePlaces (userRef : String) (server after : Server) : Prop :=
  (∀ record, ∀ field ∈ Card.fields,
    after.database.get (cardsPath userRef ++ [record, field]) =
      server.database.get (cardsPath userRef ++ [record, field])) ∧
    storageFolder userRef after = storageFolder userRef server

/-- Nothing that one user writes lies where another user reads. -/
structure Apart (first second : String) : Prop where
  /-- The cards of the first are not at or above a record of the second. -/
  notAbove : ∀ record : Key, ¬ cardsPath first <+: cardsPath second ++ [record]
  /-- The cards of the first are not below a field of a record of the second. -/
  notBelow : ∀ record : Key, ∀ field ∈ Card.fields,
    ¬ cardsPath second ++ [record, field] <+: cardsPath first
  /-- The storage folder of the first is not at or below the one of the second. -/
  folders : ¬ standardizedPath second <+: standardizedPath first

/-- A field of a record is never the folder of the records of a user. -/
private theorem cardsPath_ne_field (listed : field ∈ Card.fields) :
    cardsPath first ≠ cardsPath second ++ [record, field] := by
  -- The folder is called differently from every field.
  intro same
  have ends : [Paths.users] ++ pathWithString first ++ [Paths.cards] =
      cardsPath second ++ [record] ++ [field] := by
    simpa [cardsPath] using same
  obtain ⟨_, last⟩ := List.append_inj' ends rfl
  cases last
  revert listed
  decide

/-- The records of one user are not read inside a write among the cards of the other. -/
private theorem Apart.get_apply (apart : Apart first second) {write : DatabaseWrite}
    (inside : cardsPath first <+: write.path) (listed : field ∈ Card.fields)
    (database : Database) :
    (database.apply write).get (cardsPath second ++ [record, field]) =
      database.get (cardsPath second ++ [record, field]) := by
  apply Database.get_apply_disjoint
  · intro above
    -- Then the cards of the first would be above the field, and so above its record.
    have reaches := inside.trans above
    rw [show cardsPath second ++ [record, field] = cardsPath second ++ [record] ++ [field] by simp,
      List.prefix_concat_iff] at reaches
    rcases reaches with same | reaches
    · exact cardsPath_ne_field listed (by simpa using same)
    · exact apart.notAbove record reaches
  · intro below
    rcases List.prefix_or_prefix_of_prefix inside below with reaches | reaches
    · rw [show cardsPath second ++ [record, field] = cardsPath second ++ [record] ++ [field] by simp,
        List.prefix_concat_iff] at reaches
      rcases reaches with same | reaches
      · exact cardsPath_ne_field listed (by simpa using same)
      · exact apart.notAbove record reaches
    · exact apart.notBelow record field listed reaches

/-- The pieces of a path contain only characters of the path. -/
private theorem mem_of_mem_standardizedPath {text piece : String} {c : Char}
    (inside : piece ∈ standardizedPath text) (member : c ∈ piece.toList) : c ∈ text.toList := by
  -- Joined by slashes, the pieces are the path again.
  obtain ⟨characters, split, rfl⟩ := List.mem_map.mp inside
  have part : characters ∈ text.toList.splitOn '/' := (List.mem_filter.mp split).1
  obtain ⟨index, reads⟩ := List.mem_iff_getElem?.mp part
  have joined : characters ∈ (text.toList.splitOn '/').intersperse ['/'] := by
    refine List.mem_iff_getElem?.mpr ⟨2 * index, ?_⟩
    rw [List.getElem?_intersperse_two_mul, reads]
  have whole : List.intercalate ['/'] (text.toList.splitOn '/') = text.toList :=
    List.intercalate_splitOn '/'
  rw [← whole]
  exact List.mem_flatten.mpr ⟨characters, joined, by simpa using member⟩

/-- No picture of the first user is stored in the folder of the second. -/
private theorem Apart.picture_outside (apart : Apart first second)
    (valid : isValidPathString second = true) (uuid : String) :
    ¬ standardizedPath second <+: standardizedPath first ++ [uuid ++ ".png"] := by
  intro inside
  rcases List.prefix_concat_iff.mp inside with same | inside
  · -- The name of a picture contains a full stop, and no path string does.
    have piece : uuid ++ ".png" ∈ standardizedPath second := by simp [same]
    have stop : '.' ∈ second.toList := mem_of_mem_standardizedPath piece (by simp)
    simp only [isValidPathString, Bool.and_eq_true, List.all_eq_true] at valid
    have excluded := valid.2 '.' stop
    revert excluded
    decide
  · exact apart.folders inside

/-- A load delivers the cards in the folder of the user. -/
private theorem loadedCards_save {user : User}
    (valid : isValidPathString (userKey user.email) = true) :
    loadedCards (reader.save user) server =
      .ok (some (Node.cards (server.database.get (cardsPath (userKey user.email))))) := by
  have current : getCurrentUserRef (reader.save user) = some (userKey user.email) := rfl
  simp only [loadedCards, loadDataFromDb, current, cardsRef_of_valid valid, Except.map,
    Option.map_some]

/-- What lies apart from the first user, an operation of the first leaves as it is. -/
private theorem Apart.samePlaces (apart : Apart first second)
    (valid : isValidPathString second = true) {operation : DatabaseOperation}
    (foreign : ∀ url path, operation = .removeImageFromStorage url →
      platform.referenceForURL url = .ok path → ¬ standardizedPath second <+: path)
    (effect : operation.Effect platform first server after) : SamePlaces second server after := by
  -- An operation writes one record, stores one picture or deletes one.
  cases effect with
  | unchanged => exact ⟨fun _ _ _ => rfl, rfl⟩
  | written write inside database objects =>
    refine ⟨?_, by rw [storageFolder, storageFolder, objects]⟩
    intro record field listed
    rw [database]
    exact apart.get_apply inside listed _
  | stored uuid object path =>
    refine ⟨fun _ _ _ => rfl, storageFolder_putData ?_ server⟩
    rw [path]
    exact apart.picture_outside valid uuid
  | deleted url path named =>
    exact ⟨fun _ _ _ => rfl, storageFolder_delete (foreign url path rfl named) server⟩

/-- If the paths lie apart, a sequence of operations of the first user leaves the places of the
second as they are. -/
private theorem Apart.samePlaces_performAll (apart : Apart first second)
    (valid : isValidPathString second = true) (current : getCurrentUserRef defaults = some first)
    {operations : List DatabaseOperation}
    (foreign : ∀ url path, .removeImageFromStorage url ∈ operations →
      platform.referenceForURL url = .ok path → ¬ standardizedPath second <+: path) :
    SamePlaces second server
      (DatabaseOperation.performAll platform defaults server operations) := by
  -- That the places hold what they held at first is an invariant of the operations.
  apply DatabaseOperation.performAll_invariant
  · intro operation member reached next ⟨records, folder⟩ done
    have effect := DatabaseOperation.effect_of_perform current done
    have kept := apart.samePlaces valid (fun url path same => foreign url path (same ▸ member)) effect
    refine ⟨?_, kept.2.trans folder⟩
    intro record field listed
    rw [kept.1 record field listed, records record field listed]
  · exact ⟨fun _ _ _ => rfl, rfl⟩

/-- A user who finds the same in the places of the records and pictures finds the same. -/
private theorem SamePlaces.sameFor {user : User}
    (same : SamePlaces (userKey user.email) server after)
    (valid : isValidPathString (userKey user.email) = true) : SameFor reader user server after := by
  -- A card is decoded from the fields of its record.
  have cards : Node.cards (after.database.get (cardsPath (userKey user.email))) =
      Node.cards (server.database.get (cardsPath (userKey user.email))) := by
    refine Node.cards_congr (after.database.canonical_get _) (server.database.canonical_get _) ?_
    intro record field listed
    have agrees := same.1 record field listed
    simp only [Database.get, KeyTree.get_append, KeyTree.get_cons, KeyTree.get_nil] at agrees
    exact agrees
  refine ⟨?_, same.2⟩
  rw [loadedCards_save valid, loadedCards_save valid, cards]

/-- A server on which a user has one record with all fields and nothing else. -/
def fullServer (userRef : String) (record : Key) : Server where
  database := Scenario.emptyDatabase.apply
    (.setValue (cardsPath userRef ++ [record]) (Card.fields.map fun field => (field, .string "x")))
  writes := []
  objects := []

/-- The card of the full record. -/
def fullCard (record : Key) : Card where
  uid := record.text
  name := "x"
  barcode := "x"
  image := none
  absoluteURL := some "x"
  notesText := some "x"

/-- The full record decodes to its card. -/
private theorem ofSnapshot_full (userRef : String) :
    Card.ofSnapshot record
      (((fullServer userRef record).database.get (cardsPath userRef)).child record) =
        some (fullCard record) := by
  -- All four fields were stored as strings.
  rw [← Database.get_concat]
  have stored : (fullServer userRef record).database.get (cardsPath userRef ++ [record]) =
      Node.merge .empty (Card.fields.map fun field => (field, some (.string "x"))) :=
    Database.get_apply_self _ _
  rw [stored]
  simp (disch := decide) only [Card.ofSnapshot, Card.fields, fullCard, List.map_cons, List.map_nil,
    Node.merge_cons, Node.merge_nil, Option.elim_some, KeyTree.child_setChild_ne,
    KeyTree.child_setChild_self, Node.string?_leaf]

/-- A record that decodes to the full card holds a string in every field. -/
private theorem string_of_ofSnapshot_full {key : Key} {value : Node}
    (decoded : Card.ofSnapshot key value = some (fullCard record)) (listed : field ∈ Card.fields) :
    Node.string? (value.child field) = some "x" := by
  -- Each field of the card comes from one field of the record.
  unfold Card.ofSnapshot at decoded
  split at decoded
  · rename_i name barcode named coded
    simp only [fullCard, Option.some.injEq, Card.mk.injEq, true_and] at decoded
    obtain ⟨_, rfl, rfl, url, notes⟩ := decoded
    simp only [Card.fields, List.mem_cons, List.not_mem_nil, or_false] at listed
    rcases listed with rfl | rfl | rfl | rfl
    · exact named
    · exact coded
    · exact url
    · exact notes
  · cases decoded

/-- A user whose full record loses a string in one of the fields no longer finds the same. -/
private theorem not_sameFor_of_broken {user : User}
    (valid : isValidPathString (userKey user.email) = true) (listed : field ∈ Card.fields)
    (broken : Node.string?
      (after.database.get (cardsPath (userKey user.email) ++ [record, field])) = none) :
    ¬ SameFor reader user (fullServer (userKey user.email) record) after := by
  intro ⟨loaded, _⟩
  rw [loadedCards_save valid, loadedCards_save valid, Except.ok.injEq, Option.some.injEq] at loaded
  -- The card is still listed, so its record still holds all strings.
  have before : fullCard record ∈ Node.cards
      ((fullServer (userKey user.email) record).database.get (cardsPath (userKey user.email))) :=
    (Node.mem_cards_iff (Database.canonical_get _ _)).mpr ⟨record, ofSnapshot_full _⟩
  rw [← loaded] at before
  obtain ⟨key, decoded⟩ := (Node.mem_cards_iff (Database.canonical_get _ _)).mp before
  have same : key = record := Key.ext_text (Card.uid_of_ofSnapshot decoded).symm
  subst same
  have reads := string_of_ofSnapshot_full decoded listed
  have located : after.database.get (cardsPath (userKey user.email) ++ [key, field]) =
      ((after.database.get (cardsPath (userKey user.email))).child key).child field := by
    simp only [Database.get, KeyTree.get_append, KeyTree.get_cons, KeyTree.get_nil]
  rw [located, reads] at broken
  cases broken

/-- A deletion of a record of the current user is performed. -/
private theorem removeDataFromDb_key (current : getCurrentUserRef defaults = some first)
    (valid : isValidPathString first = true) (uid : Key) (server : Server) :
    removeDataFromDb defaults server uid.text =
      server.perform (.removeValue (cardsPath first ++ [uid])) := by
  -- A key passes the validation and is a single piece.
  have cardRef : child (cardsPath first) uid.text = .ok (cardsPath first ++ [uid]) := by
    simp only [child, uid.isValidPathString_text, if_true, pathWithString_text]
  simp only [removeDataFromDb, onRecord, current, cardsRef_of_valid valid, Bind.bind, Except.bind,
    cardRef]

/-- A new record of the current user is stored. -/
private theorem saveCard_valid (current : getCurrentUserRef defaults = some first)
    (valid : isValidPathString first = true) (parameters : List (Key × Leaf)) (autoId : PushId)
    (server : Server) :
    (saveCard defaults server parameters autoId).map Prod.fst =
      server.perform (.setValue (cardsPath first ++ [autoId.key]) parameters) := by
  -- A generated key passes the validation and is a single piece.
  have cardRef : child (cardsPath first) autoId.text = .ok (cardsPath first ++ [autoId.key]) := by
    have piece : pathWithString autoId.text = [autoId.key] := pathWithString_text autoId.key
    have accepted : isValidPathString autoId.text = true := autoId.key.isValidPathString_text
    simp only [child, accepted, if_true, piece]
  simp only [saveCard, current, cardsRef_of_valid valid, Bind.bind, Except.bind, cardRef]
  cases server.perform (.setValue (cardsPath first ++ [autoId.key]) parameters) <;> rfl

/-- If the cards of the first user are at or above a record of the second, a deletion by the first
reaches that record. -/
private theorem not_sameFor_of_above {user : User}
    (current : getCurrentUserRef defaults = some first) (firstValid : isValidPathString first = true)
    (valid : isValidPathString (userKey user.email) = true)
    (above : cardsPath first <+: cardsPath (userKey user.email) ++ [record]) :
    ∃ uid : Key, ¬ SameFor reader user (fullServer (userKey user.email) record)
      (DatabaseOperation.performAll platform defaults (fullServer (userKey user.email) record)
        [.removeDataFromDb uid.text]) := by
  -- The key that follows on the way to the name is deleted.
  obtain ⟨rest, splits⟩ := above
  obtain ⟨uid, below, way⟩ : ∃ uid below, rest ++ [Key.name] = uid :: below :=
    List.exists_cons_of_ne_nil (by simp)
  refine ⟨uid, ?_⟩
  have listed : Key.name ∈ Card.fields := by decide
  refine not_sameFor_of_broken valid listed ?_
  simp only [DatabaseOperation.performAll, DatabaseOperation.perform,
    removeDataFromDb_key current firstValid]
  -- A deletion stores no value that could be too large.
  show Node.string? (((fullServer (userKey user.email) record).database.apply
    (.removeValue (cardsPath first ++ [uid]))).get _) = none
  have located : cardsPath (userKey user.email) ++ [record, Key.name] =
      cardsPath first ++ [uid] ++ below := by
    calc cardsPath (userKey user.email) ++ [record, Key.name]
        = cardsPath (userKey user.email) ++ [record] ++ [Key.name] := by simp
      _ = cardsPath first ++ (rest ++ [Key.name]) := by rw [← splits, List.append_assoc]
      _ = cardsPath first ++ [uid] ++ below := by rw [way]; simp
  have deleted := Database.get_apply_below (fullServer (userKey user.email) record).database
    (.removeValue (cardsPath first ++ [uid])) below
  rw [located]
  exact (congrArg Node.string? deleted).trans (by simp [DatabaseWrite.replacement])

/-- A node with something below it is not a string. -/
private theorem string?_of_below {node : Node} {below : Path} (proper : below ≠ [])
    (present : (node.get below).isEmpty = false) : Node.string? node = none := by
  -- There is nothing below a value.
  cases node with
  | leaf value =>
    rw [KeyTree.get_leaf_of_ne_nil value proper, KeyTree.isEmpty_empty] at present
    cases present
  | node entries => rfl

/-- If the cards of the first user are below a field of a record of the second, a new card of the
first replaces that field. -/
private theorem not_sameFor_of_below {user : User}
    (current : getCurrentUserRef defaults = some first) (firstValid : isValidPathString first = true)
    (valid : isValidPathString (userKey user.email) = true) (listed : field ∈ Card.fields)
    (below : cardsPath (userKey user.email) ++ [record, field] <+: cardsPath first) :
    ¬ SameFor reader user (fullServer (userKey user.email) record)
      (DatabaseOperation.performAll platform defaults (fullServer (userKey user.email) record)
        [.saveCard [(Key.name, .boolean true)] Scenario.firstId]) := by
  refine not_sameFor_of_broken valid listed ?_
  simp only [DatabaseOperation.performAll, DatabaseOperation.perform,
    saveCard_valid current firstValid]
  -- A truth value is never too large.
  show Node.string? (((fullServer (userKey user.email) record).database.apply
    (.setValue (cardsPath first ++ [Scenario.firstId.key]) [(Key.name, .boolean true)])).get _) = none
  obtain ⟨rest, splits⟩ := below
  have proper : rest ++ [Scenario.firstId.key, Key.name] ≠ [] := by simp
  refine string?_of_below proper ?_
  rw [Database.get, ← KeyTree.get_append]
  have located : cardsPath (userKey user.email) ++ [record, field] ++
      (rest ++ [Scenario.firstId.key, Key.name]) =
        cardsPath first ++ [Scenario.firstId.key] ++ [Key.name] := by
    rw [← List.append_assoc, splits]
    simp
  rw [located]
  have stored := Database.get_apply_below (fullServer (userKey user.email) record).database
    (.setValue (cardsPath first ++ [Scenario.firstId.key]) [(Key.name, .boolean true)]) [Key.name]
  exact (congrArg KeyTree.isEmpty stored).trans (by simp [DatabaseWrite.replacement, DatabaseWrite.fields])

/-- If the storage folder of the first user is in the one of the second, so is every new picture of
the first. -/
private theorem not_sameFor_of_folders {user : User}
    (current : getCurrentUserRef defaults = some first)
    (inside : standardizedPath (userKey user.email) <+: standardizedPath first) :
    ¬ SameFor reader user Scenario.emptyServer
      (DatabaseOperation.performAll platform defaults Scenario.emptyServer
        [.saveCardImage .shop "U1" (some "x")]) := by
  intro ⟨_, folder⟩
  -- The new object is the only one in the folder, which was empty before.
  have reaches : standardizedPath (userKey user.email) <+: standardizedPath first ++ ["U1.png"] :=
    inside.trans (List.prefix_append _ _)
  simp [DatabaseOperation.performAll, DatabaseOperation.perform, uploaded, saveCardImage, current,
    storageFolder, Server.putData, Scenario.emptyServer, reaches] at folder

/-- An address of an object in the folder of the second user lets the first delete that object. -/
private theorem not_sameFor_of_address {user : User} {url : String} {path : StoragePath}
    (named : platform.referenceForURL url = .ok path)
    (inside : standardizedPath (userKey user.email) <+: path) :
    ∃ server, ¬ SameFor reader user server
      (DatabaseOperation.performAll platform defaults server [.removeImageFromStorage url]) := by
  -- The object at the address is the only one in the folder.
  let object : StoredObject := { path := path, data := .empty, downloadURL := url }
  refine ⟨{ Scenario.emptyServer with objects := [object] }, ?_⟩
  intro ⟨_, folder⟩
  simp [DatabaseOperation.performAll, DatabaseOperation.perform, removeImageFromStorage, named,
    Except.map, storageFolder, Server.delete, object, inside] at folder

/-- The operations of a user who may delete pictures at certain addresses leave what another user
finds as it is exactly if the paths lie apart and no address names an object of the other. -/
theorem accounts_isolated {first second : User} {addresses : Set String}
    (firstValid : isValidPathString (userKey first.email) = true)
    (secondValid : isValidPathString (userKey second.email) = true) :
    (∀ (server : Server) (operations : List DatabaseOperation),
      (∀ url, .removeImageFromStorage url ∈ operations → url ∈ addresses) →
        SameFor defaults second server
          (DatabaseOperation.performAll platform (defaults.save first) server operations)) ↔
      Apart (userKey first.email) (userKey second.email) ∧
        ∀ url ∈ addresses, ∀ path, platform.referenceForURL url = .ok path →
          ¬ standardizedPath (userKey second.email) <+: path := by
  have current : getCurrentUserRef (defaults.save first) = some (userKey first.email) := rfl
  constructor
  · intro isolated
    refine ⟨⟨?_, ?_, ?_⟩, ?_⟩
    · intro record above
      obtain ⟨uid, changed⟩ := not_sameFor_of_above current firstValid secondValid above
      exact changed (isolated _ _ (by simp))
    · intro record field listed below
      exact not_sameFor_of_below current firstValid secondValid listed below (isolated _ _ (by simp))
    · intro inside
      exact not_sameFor_of_folders current inside (isolated _ _ (by simp))
    · intro url member path named inside
      obtain ⟨server, changed⟩ := not_sameFor_of_address named inside
      refine changed (isolated server _ ?_)
      intro other listed
      have same : other = url := by simpa using listed
      exact same ▸ member
  · intro ⟨apart, foreign⟩ server operations allowed
    apply SamePlaces.sameFor _ secondValid
    exact apart.samePlaces_performAll secondValid current
      fun url path member => foreign url (allowed url member) path

/-- The paths of the two users of the installation lie apart. -/
private theorem apart_annaBoris :
    Apart (userKey Scenario.anna.email) (userKey Scenario.boris.email) := by
  -- They differ in the key of the user.
  have anna : cardsPath (userKey Scenario.anna.email) =
      [Paths.users, ⟨"anna@mail_com", by decide⟩, Paths.cards] := by decide +kernel
  have boris : cardsPath (userKey Scenario.boris.email) =
      [Paths.users, ⟨"boris@mail_com", by decide⟩, Paths.cards] := by decide +kernel
  refine ⟨?_, ?_, by decide +kernel⟩
  · intro record above
    simp [anna, boris] at above
  · intro record field _ below
    simp [anna, boris] at below

/-- What the first user of the installation does to cards and pictures, the second does not see. -/
theorem accounts_isolated_annaBoris :
    SameFor Scenario.annaSignedIn Scenario.boris Scenario.emptyServer
      (DatabaseOperation.performAll Platform.ascii (Scenario.annaSignedIn.save Scenario.anna)
        Scenario.emptyServer
        [.saveCard [(Key.name, .string "Lidl"), (Key.barcode, .string "123")] Scenario.firstId,
          .saveCardImage (.photo 1) "U1" (some (Scenario.urlOf "U1")),
          .removeImageFromStorage (Scenario.urlOf "U1")]) := by
  have isolated := @accounts_isolated Platform.ascii Scenario.annaSignedIn Scenario.anna
    Scenario.boris {Scenario.urlOf "U1"} (by decide) (by decide)
  refine isolated.mpr ⟨apart_annaBoris, ?_⟩ _ _ fun url member => ?_
  · -- The address names the picture of the first user.
    intro url member path named inside
    have same : url = Scenario.urlOf "U1" := member
    subst same
    have object : Platform.ascii.referenceForURL (Scenario.urlOf "U1") =
        .ok ["anna@mail_com", "U1.png"] := by decide +kernel
    rw [object] at named
    cases named
    revert inside
    decide +kernel
  · have same : url = Scenario.urlOf "U1" := by simpa using member
    exact same

/-- A user whose e-mail address has an underscore where another one has a full stop. -/
def Scenario.dotted : User := { name := "Anna", email := "anna.m@mail.com", absoluteURL := none }

/-- The user with the underscore. -/
def Scenario.underscored : User := { name := "Bob", email := "anna_m@mail.com", absoluteURL := none }

/-- A card of one user is loaded by another user whose address differs in one replaced character. -/
theorem shared_account :
    ¬ ∀ (defaults : UserDefaults) (first second : User) (server : Server)
        (operations : List DatabaseOperation), first.email ≠ second.email →
        isValidPathString (userKey first.email) = true →
        isValidPathString (userKey second.email) = true →
        SameFor defaults second server
          (DatabaseOperation.performAll Platform.ascii (defaults.save first) server operations) := by
  intro always
  obtain ⟨loaded, _⟩ := always Scenario.annaSignedIn Scenario.dotted Scenario.underscored
    Scenario.emptyServer
    [.saveCard [(Key.name, .string "Lidl"), (Key.barcode, .string "123")] Scenario.firstId]
    (by decide) (by decide) (by decide)
  -- Before, the other user had no cards.
  revert loaded
  decide +kernel

end DatabaseService

end CardGuru
