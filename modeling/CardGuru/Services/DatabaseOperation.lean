import CardGuru.Services.DatabaseService

/-! Sequences of operations of the database service, and what one user finds on the server. -/

namespace CardGuru

/-- A call of the database service, with what its caller and the platform supply. -/
inductive DatabaseOperation where
  /-- Store a new record. -/
  | saveCard (parameters : List (Key × Leaf)) (autoId : PushId)
  /-- Read the cards. -/
  | loadDataFromDb
  /-- Delete a record. -/
  | removeDataFromDb (withUID : String)
  /-- Write name, barcode and picture address of a card. -/
  | updateDataInDb (forCard : Card)
  /-- Write the notes of a card. -/
  | addNotesToDb (forCard : Card)
  /-- Store a picture; it gets the given address, unless storing it fails. -/
  | saveCardImage (image : UIImage) (uuid : String) (downloadURL : Option String)
  /-- Delete a stored picture. -/
  | removeImageFromStorage (withURL : String)

namespace DatabaseService

/-- The server after an upload has ended. -/
def uploaded (defaults : UserDefaults) (server : Server) (image : UIImage) (uuid : String)
    (downloadURL : Option String) : Server :=
  match saveCardImage defaults image uuid, downloadURL with
  | some (path, data), some url => server.putData { path := path, data := data, downloadURL := url }
  -- Without a user nothing is sent, and a failed upload leaves nothing behind.
  | _, _ => server

/-- The cards that a load hands to its completion; without a user it never completes. -/
def loadedCards (defaults : UserDefaults) (server : Server) : Except Fault (Option (List Card)) :=
  (loadDataFromDb defaults).map fun path =>
    path.map fun path => Node.cards (server.database.get path)

/-- The objects in the storage folder of a user. -/
def storageFolder (userRef : String) (server : Server) : List StoredObject :=
  -- Objects in folders below it are its objects as well.
  server.objects.filter fun object => standardizedPath userRef <+: object.path

section Folders

variable {userRef : String} {path : StoragePath}

/-- Deleting an object outside a folder leaves the folder as it is. -/
theorem storageFolder_delete (outside : ¬ standardizedPath userRef <+: path) (server : Server) :
    storageFolder userRef (server.delete path) = storageFolder userRef server := by
  -- What is deleted would be filtered out anyway.
  unfold storageFolder Server.delete
  rw [List.filter_filter]
  refine List.filter_congr fun object _ => ?_
  by_cases same : object.path = path
  · simp [same, outside]
  · simp [same]

/-- Storing an object outside a folder leaves the folder as it is. -/
theorem storageFolder_putData {object : StoredObject}
    (outside : ¬ standardizedPath userRef <+: object.path) (server : Server) :
    storageFolder userRef (server.putData object) = storageFolder userRef server := by
  -- The object at the same path is deleted first.
  have added : storageFolder userRef (server.putData object) =
      storageFolder userRef (server.delete object.path) := by
    simp [storageFolder, Server.putData, Server.delete, outside]
  rw [added, storageFolder_delete outside]

end Folders

end DatabaseService

namespace DatabaseOperation

open DatabaseService

/-- The server after one operation under the given defaults. -/
def perform (platform : Platform) (defaults : UserDefaults) (server : Server) :
    DatabaseOperation → Except Fault Server
  | saveCard parameters autoId =>
    (DatabaseService.saveCard defaults server parameters autoId).map Prod.fst
  -- Reading changes nothing.
  | loadDataFromDb => (DatabaseService.loadDataFromDb defaults).map fun _ => server
  | removeDataFromDb withUID => DatabaseService.removeDataFromDb defaults server withUID
  | updateDataInDb forCard => DatabaseService.updateDataInDb defaults server forCard
  | addNotesToDb forCard => DatabaseService.addNotesToDb defaults server forCard
  | saveCardImage image uuid downloadURL => .ok (uploaded defaults server image uuid downloadURL)
  | removeImageFromStorage withURL =>
    DatabaseService.removeImageFromStorage platform server withURL

/-- The server after a sequence of operations; an operation that raises ends the process. -/
def performAll (platform : Platform) (defaults : UserDefaults) (server : Server) :
    List DatabaseOperation → Server
  | [] => server
  | operation :: later =>
    match operation.perform platform defaults server with
    -- Nothing is performed after a fault.
    | .error _ => server
    | .ok after => performAll platform defaults after later

/-- What an operation can do to the server: nothing, a write among the records of its user, a new
object in the folder of its user, or the deletion of an object whose address it was given. -/
inductive Effect (platform : Platform) (userRef : String) (server : Server) :
    DatabaseOperation → Server → Prop
  /-- The server stays as it is. -/
  | unchanged (operation : DatabaseOperation) : Effect platform userRef server operation server
  /-- A write among the records of the user is performed. -/
  | written {operation : DatabaseOperation} {after : Server} (write : DatabaseWrite)
      (inside : cardsPath userRef <+: write.path)
      (database : after.database = server.database.apply write)
      (objects : after.objects = server.objects) : Effect platform userRef server operation after
  /-- An object is stored in the folder of the user. -/
  | stored {operation : DatabaseOperation} (uuid : String) (object : StoredObject)
      (path : object.path = standardizedPath userRef ++ [uuid ++ ".png"]) :
      Effect platform userRef server operation (server.putData object)
  /-- The object that an address names is deleted. -/
  | deleted (url : String) (path : StoragePath) (named : platform.referenceForURL url = .ok path) :
      Effect platform userRef server (.removeImageFromStorage url) (server.delete path)

variable {platform : Platform} {defaults : UserDefaults} {server after : Server} {userRef : String}

private theorem Effect.of_onRecord {uid : String} {operation : DatabaseOperation}
    {request : Path → DatabaseWrite} (addressed : ∀ path, (request path).path = path)
    (current : getCurrentUserRef defaults = some userRef)
    (done : onRecord defaults server uid request = .ok after) :
    Effect platform userRef server operation after := by
  -- The record lies among the cards of the user, wherever its uid leads.
  rcases onRecord_ok done with ⟨nobody, _⟩ | ⟨owner, known, _, performed⟩
  · rw [current] at nobody
    cases nobody
  · rw [current] at known
    cases known
    have result := Server.perform_ok performed
    subst result
    refine .written (request (recordPath userRef uid)) ?_ rfl rfl
    rw [addressed]
    exact List.prefix_append _ _

/-- Every operation that does not raise has one of these effects. -/
theorem effect_of_perform {operation : DatabaseOperation}
    (current : getCurrentUserRef defaults = some userRef)
    (done : operation.perform platform defaults server = .ok after) :
    Effect platform userRef server operation after := by
  cases operation with
  | saveCard parameters autoId =>
    unfold perform at done
    cases saved : DatabaseService.saveCard defaults server parameters autoId with
    | error fault => simp [saved, Except.map] at done
    | ok result =>
      obtain ⟨next, uid⟩ := result
      simp only [saved, Except.map] at done
      cases done
      rcases saveCard_ok saved with ⟨nobody, _⟩ | ⟨owner, known, _, performed⟩
      · rw [current] at nobody
        cases nobody
      · rw [current] at known
        cases known
        have result := Server.perform_ok performed
        subst result
        exact .written _ (List.prefix_append _ _) rfl rfl
  | loadDataFromDb =>
    unfold perform at done
    cases found : DatabaseService.loadDataFromDb defaults with
    | error fault => simp [found, Except.map] at done
    | ok path =>
      simp only [found, Except.map] at done
      cases done
      exact .unchanged _
  | removeDataFromDb withUID => exact .of_onRecord (fun _ => rfl) current done
  | updateDataInDb forCard => exact .of_onRecord (fun _ => rfl) current done
  | addNotesToDb forCard => exact .of_onRecord (fun _ => rfl) current done
  | saveCardImage image uuid downloadURL =>
    cases done
    cases downloadURL with
    | none =>
      simp only [uploaded, DatabaseService.saveCardImage, current, Option.map_some]
      exact .unchanged _
    | some url =>
      simp only [uploaded, DatabaseService.saveCardImage, current, Option.map_some]
      exact .stored uuid _ rfl
  | removeImageFromStorage withURL =>
    obtain ⟨path, named, rfl⟩ := removeImageFromStorage_ok done
    exact .deleted withURL path named

/-- What every single operation keeps, a sequence of operations keeps. -/
theorem performAll_invariant {holds : Server → Prop} {operations : List DatabaseOperation}
    (kept : ∀ operation ∈ operations, ∀ server after, holds server →
      operation.perform platform defaults server = .ok after → holds after)
    (initially : holds server) : holds (performAll platform defaults server operations) := by
  -- A fault ends the sequence where it stands.
  induction operations generalizing server with
  | nil => exact initially
  | cons operation later ih =>
    simp only [performAll]
    cases done : operation.perform platform defaults server with
    | error fault => exact initially
    | ok after =>
      have next := kept operation List.mem_cons_self server after initially done
      exact ih (fun other member => kept other (List.mem_cons_of_mem _ member)) next

end DatabaseOperation

end CardGuru
