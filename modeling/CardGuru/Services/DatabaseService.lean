import CardGuru.Firebase.Server

/-! The service that reads and writes the cards of the user stored in the defaults. -/

namespace CardGuru

/-- The settings that outlive a process. -/
structure UserDefaults where
  isLoggedIn : Bool
  isTouchIDEnabled : Bool
  user : Option User
  /-- Whether the search is to be opened with the list of cards. -/
  isForceTouchActive : Bool := false
deriving DecidableEq

namespace UserDefaults

/-- The user stored last; storing and reading encode and decode the same fields. -/
def fetchUser (defaults : UserDefaults) : Option User :=
  defaults.user

/-- Store a user. -/
def save (defaults : UserDefaults) (user : User) : UserDefaults :=
  { defaults with user := some user }

/-- Store whether somebody is logged in. -/
def saveLoggedState (defaults : UserDefaults) (current : Bool) : UserDefaults :=
  { defaults with isLoggedIn := current }

/-- Store whether the search is to be opened with the list of cards. -/
def saveForceTouchActive (defaults : UserDefaults) (current : Bool) : UserDefaults :=
  { defaults with isForceTouchActive := current }

/-- Store whether Touch ID is asked for. -/
def saveTouchIdStatus (defaults : UserDefaults) (current : Bool) : UserDefaults :=
  { defaults with isTouchIDEnabled := current }

section Settings

variable (defaults : UserDefaults) (current : Bool) (user : User)

@[simp] theorem isLoggedIn_saveLoggedState :
    (defaults.saveLoggedState current).isLoggedIn = current := rfl

@[simp] theorem fetchUser_saveLoggedState :
    (defaults.saveLoggedState current).fetchUser = defaults.fetchUser := rfl

@[simp] theorem isTouchIDEnabled_saveLoggedState :
    (defaults.saveLoggedState current).isTouchIDEnabled = defaults.isTouchIDEnabled := rfl

@[simp] theorem isLoggedIn_save : (defaults.save user).isLoggedIn = defaults.isLoggedIn := rfl

@[simp] theorem fetchUser_save : (defaults.save user).fetchUser = some user := rfl

@[simp] theorem isLoggedIn_saveForceTouchActive :
    (defaults.saveForceTouchActive current).isLoggedIn = defaults.isLoggedIn := rfl

@[simp] theorem fetchUser_saveForceTouchActive :
    (defaults.saveForceTouchActive current).fetchUser = defaults.fetchUser := rfl

@[simp] theorem isTouchIDEnabled_saveForceTouchActive :
    (defaults.saveForceTouchActive current).isTouchIDEnabled = defaults.isTouchIDEnabled := rfl

@[simp] theorem isLoggedIn_saveTouchIdStatus :
    (defaults.saveTouchIdStatus current).isLoggedIn = defaults.isLoggedIn := rfl

@[simp] theorem fetchUser_saveTouchIdStatus :
    (defaults.saveTouchIdStatus current).fetchUser = defaults.fetchUser := rfl

end Settings

end UserDefaults

/-- The reference that a path string leads to from a reference below the root. -/
def child (reference : Path) (pathString : String) : Except Fault Path :=
  -- The validation raises before anything else happens.
  if isValidPathString pathString then .ok (reference ++ pathWithString pathString)
  else .error (.invalidPathValidation pathString)

namespace Paths

/-- The folder of all users. -/
def users : Key := ⟨"Users", by decide⟩

/-- The folder of the cards of one user. -/
def cards : Key := ⟨"Cards", by decide⟩

end Paths

/-- Every full stop is replaced by an underscore; no address is assumed to have a combining mark after a full
stop, where `replacingOccurrences(of:with:)` compares the two together and leaves the full stop. -/
def userKey (email : String) : String :=
  String.ofList (email.toList.map fun c => if c = '.' then '_' else c)

/-- The alphabet of generated keys. -/
def PUSH_CHARS : List Char :=
  "-0123456789ABCDEFGHIJKLMNOPQRSTUVWXYZ_abcdefghijklmnopqrstuvwxyz".toList

/-- A generated key: eight characters for the time and twelve random ones. -/
structure PushId where
  text : String
  /-- The characters are taken from the alphabet. -/
  chars : (∀ c ∈ text.toList, c ∈ PUSH_CHARS) ∧ text.toList.length = 20
deriving DecidableEq

namespace PushId

/-- A generated key is valid. -/
theorem isValidKey_text (autoId : PushId) : isValidKey autoId.text = true := by
  -- The alphabet contains none of the excluded characters.
  obtain ⟨alphabet, length⟩ := autoId.chars
  have disjoint : (PUSH_CHARS.all fun c => !kInvalidKeyCharacters.contains c) = true := by decide
  simp only [isValidKey, Bool.and_eq_true, List.all_eq_true]
  refine ⟨?_, fun c member => List.all_eq_true.mp disjoint c (alphabet c member)⟩
  cases split : autoId.text.toList with
  | nil => simp [split] at length
  | cons first rest => rfl

/-- The generated key as a key of the database. -/
def key (autoId : PushId) : Key := ⟨autoId.text, autoId.isValidKey_text⟩

end PushId

namespace DatabaseService

/-- The folder name of the current user, from the e-mail address in the defaults. -/
def getCurrentUserRef (defaults : UserDefaults) : Option String :=
  defaults.fetchUser.map fun user => userKey user.email

/-- The reference to the cards of a user. -/
def cardsRef (userRef : String) : Except Fault Path := do
  let user ← child [Paths.users] userRef
  child user Paths.cards.text

/-- Store a new record under a generated key and return that key. -/
def saveCard (defaults : UserDefaults) (server : Server) (parameters : List (Key × Leaf))
    (autoId : PushId) : Except Fault (Server × String) :=
  match getCurrentUserRef defaults with
  -- Without a user nothing is stored and the key is the empty string.
  | none => .ok (server, "")
  | some userRef => do
    let cards ← cardsRef userRef
    let cardRef ← child cards autoId.text
    let server ← server.perform (.setValue cardRef parameters)
    return (server, autoId.text)

/-- Where a load reads the cards of the current user; without a user it never completes. -/
def loadDataFromDb (defaults : UserDefaults) : Except Fault (Option Path) :=
  match getCurrentUserRef defaults with
  | none => .ok none
  | some userRef => (cardsRef userRef).map some

/-- Issue a write on the record of the current user with the given uid. -/
def onRecord (defaults : UserDefaults) (server : Server) (uid : String)
    (request : Path → DatabaseWrite) : Except Fault Server :=
  match getCurrentUserRef defaults with
  | none => .ok server
  | some userRef => do
    let cards ← cardsRef userRef
    let cardRef ← child cards uid
    server.perform (request cardRef)

/-- Delete a record. -/
def removeDataFromDb (defaults : UserDefaults) (server : Server) (withUID : String) :
    Except Fault Server :=
  onRecord defaults server withUID .removeValue

/-- Write name, barcode and picture address of a card into its record. -/
def updateDataInDb (defaults : UserDefaults) (server : Server) (forCard : Card) :
    Except Fault Server :=
  onRecord defaults server forCard.uid fun cardRef =>
    .updateChildValues cardRef
      [(Key.name, some (.string forCard.name)),
       (Key.barcode, some (.string forCard.barcode)),
       (Key.absoluteURL, forCard.absoluteURL.map .string)]

/-- Write the notes of a card into its record. -/
def addNotesToDb (defaults : UserDefaults) (server : Server) (forCard : Card) :
    Except Fault Server :=
  onRecord defaults server forCard.uid fun cardRef =>
    .updateChildValues cardRef [(Key.notes, forCard.notesText.map .string)]

/-- The bytes that are stored for a picture; every one but the placeholder is scaled first. -/
def imageData (image : UIImage) : Data :=
  let resizedImage : UIImage := if image ≠ .shop then .scaled image else .shop
  resizedImage.pngData.getD .empty

/-- The upload that storing a picture starts: its object path and content. -/
def saveCardImage (defaults : UserDefaults) (image : UIImage) (uuid : String) :
    Option (StoragePath × Data) :=
  (getCurrentUserRef defaults).map fun userRef =>
    (standardizedPath userRef ++ [uuid ++ ".png"], imageData image)

/-- Delete the stored picture at a download address. -/
def removeImageFromStorage (platform : Platform) (server : Server) (withURL : String) :
    Except Fault Server :=
  (platform.referenceForURL withURL).map server.delete

/-- The folder of the records of a user. -/
def cardsPath (userRef : String) : Path :=
  [Paths.users] ++ pathWithString userRef ++ [Paths.cards]

/-- The record of a user with the given uid. -/
def recordPath (userRef uid : String) : Path :=
  cardsPath userRef ++ pathWithString uid

/-- A reference that does not raise appends the keys of its path string. -/
theorem child_ok {reference location : Path} {pathString : String}
    (found : child reference pathString = .ok location) :
    isValidPathString pathString = true ∧ location = reference ++ pathWithString pathString := by
  -- The other branch raises.
  unfold child at found
  split at found
  · rename_i valid
    cases found
    exact ⟨valid, rfl⟩
  · cases found

/-- The reference to the cards of a user is the folder of its records. -/
theorem cardsRef_ok {userRef : String} {cards : Path} (found : cardsRef userRef = .ok cards) :
    isValidPathString userRef = true ∧ cards = cardsPath userRef := by
  -- The user key is validated first, and then the fixed folder name.
  obtain ⟨user, first, second⟩ := bind_ok found
  obtain ⟨valid, rfl⟩ := child_ok first
  obtain ⟨_, rfl⟩ := child_ok second
  exact ⟨valid, by simp [cardsPath]⟩

/-- A valid user key leads to the folder of its records. -/
theorem cardsRef_of_valid {userRef : String} (valid : isValidPathString userRef = true) :
    cardsRef userRef = .ok (cardsPath userRef) := by
  -- Neither validation raises.
  simp [cardsRef, child, valid, Key.isValidPathString_text, cardsPath, Bind.bind, Except.bind]

/-- A write on a record does nothing without a user and else addresses that record. -/
theorem onRecord_ok {defaults : UserDefaults} {server after : Server} {uid : String}
    {request : Path → DatabaseWrite} (done : onRecord defaults server uid request = .ok after) :
    (getCurrentUserRef defaults = none ∧ after = server) ∨
      ∃ userRef, getCurrentUserRef defaults = some userRef ∧ isValidPathString uid = true ∧
        server.perform (request (recordPath userRef uid)) = .ok after := by
  -- Both references must be made before the write is issued.
  unfold onRecord at done
  cases current : getCurrentUserRef defaults with
  | none =>
    left
    simp only [current] at done
    cases done
    exact ⟨rfl, rfl⟩
  | some userRef =>
    right
    simp only [current] at done
    obtain ⟨cards, first, later⟩ := bind_ok done
    obtain ⟨_, rfl⟩ := cardsRef_ok first
    obtain ⟨cardRef, second, written⟩ := bind_ok later
    obtain ⟨valid, rfl⟩ := child_ok second
    exact ⟨userRef, rfl, valid, written⟩

/-- A new record is written under its generated key, unless there is no user. -/
theorem saveCard_ok {defaults : UserDefaults} {server after : Server} {uid : String}
    {parameters : List (Key × Leaf)} {autoId : PushId}
    (done : saveCard defaults server parameters autoId = .ok (after, uid)) :
    (getCurrentUserRef defaults = none ∧ after = server ∧ uid = "") ∨
      ∃ userRef, getCurrentUserRef defaults = some userRef ∧ uid = autoId.text ∧
        server.perform (.setValue (cardsPath userRef ++ [autoId.key]) parameters) = .ok after := by
  -- A generated key always passes the validation and is a single piece.
  unfold saveCard at done
  cases current : getCurrentUserRef defaults with
  | none =>
    left
    simp only [current] at done
    cases done
    exact ⟨rfl, rfl, rfl⟩
  | some userRef =>
    right
    simp only [current] at done
    obtain ⟨cards, first, later⟩ := bind_ok done
    obtain ⟨_, rfl⟩ := cardsRef_ok first
    obtain ⟨cardRef, second, last⟩ := bind_ok later
    obtain ⟨_, rfl⟩ := child_ok second
    obtain ⟨result, written, returned⟩ := bind_ok last
    have piece : pathWithString autoId.text = [autoId.key] := pathWithString_text autoId.key
    rw [piece] at written
    cases returned
    exact ⟨userRef, rfl, rfl, written⟩

/-- Deleting a picture removes the object that its address names. -/
theorem removeImageFromStorage_ok {platform : Platform} {server after : Server} {withURL : String}
    (done : removeImageFromStorage platform server withURL = .ok after) :
    ∃ path, platform.referenceForURL withURL = .ok path ∧ after = server.delete path := by
  -- An address that names no object raises.
  unfold removeImageFromStorage at done
  cases named : platform.referenceForURL withURL with
  | error fault => simp [named, Except.map] at done
  | ok path =>
    simp only [named, Except.map] at done
    cases done
    exact ⟨path, rfl, rfl⟩

end DatabaseService

end CardGuru
