import CardGuru.App.Scenario
import CardGuru.App.Views
import CardGuru.Lib.Latest
import CardGuru.Services.DatabaseOperation

/-! What a load delivers after any history of writes to the records of one user: of each card the
values written last, unless the record was replaced or removed since. -/

namespace CardGuru

/-- A call of the database service that writes the record of one card. -/
inductive CardWrite where
  /-- A new card is stored under a generated key. -/
  | saveCard (name barcode : String) (autoId : PushId)
  /-- Name, barcode and picture address of a card are written. -/
  | updateDataInDb (key : Key) (forCard : Card)
  /-- The notes of a card are written. -/
  | addNotesToDb (key : Key) (forCard : Card)
  /-- A card is deleted. -/
  | removeDataFromDb (key : Key)

namespace CardWrite

/-- The uid that a call concerns. -/
def key : CardWrite → Key
  | saveCard _ _ autoId => autoId.key
  | updateDataInDb key _ | addNotesToDb key _ | removeDataFromDb key => key

/-- The call itself; a new card is stored with the fields that the scanner screen gives it. -/
def operation : CardWrite → DatabaseOperation
  -- Each write is the call that the screens make.
  | saveCard name barcode autoId =>
    .saveCard [(Key.name, .string name), (Key.barcode, .string barcode)] autoId
  | updateDataInDb key forCard => .updateDataInDb { forCard with uid := key.text }
  | addNotesToDb key forCard => .addNotesToDb { forCard with uid := key.text }
  | removeDataFromDb key => .removeDataFromDb key.text

/-- The server after a call that returns. -/
def next (platform : Platform) (defaults : UserDefaults) (server : Server) (write : CardWrite) :
    Option Server :=
  (write.operation.perform platform defaults server).toOption

/-- Name and barcode that a call gives to the card with a uid. -/
def values (uid : Key) : CardWrite → Option (String × String)
  | saveCard name barcode autoId => if autoId.key = uid then some (name, barcode) else none
  | updateDataInDb key forCard => if key = uid then some (forCard.name, forCard.barcode) else none
  | _ => none

/-- The picture address, or its absence, that a call gives to the card with a uid. -/
def urls (uid : Key) : CardWrite → Option (Option String)
  | updateDataInDb key forCard => if key = uid then some forCard.absoluteURL else none
  | _ => none

/-- The notes, or their absence, that a call gives to the card with a uid. -/
def notes (uid : Key) : CardWrite → Option (Option String)
  | addNotesToDb key forCard => if key = uid then some forCard.notesText else none
  | _ => none

/-- Whether a call removes the card with a uid. -/
def removes (uid : Key) : CardWrite → Bool
  | removeDataFromDb key => key = uid
  | _ => false

/-- Whether a call stores the card with a uid anew or removes it. -/
def replaces (uid : Key) : CardWrite → Bool
  | saveCard _ _ autoId => autoId.key = uid
  | removeDataFromDb key => key = uid
  | _ => false

/-- Name and barcode written last after the last removal. -/
def lastValues (uid : Key) (writes : List CardWrite) : Option (String × String) :=
  Latest.since (values uid) (removes uid) writes

/-- The picture address written last after the card was last stored anew or removed. -/
def lastURL (uid : Key) (writes : List CardWrite) : Option String :=
  (Latest.since (urls uid) (replaces uid) writes).join

/-- The notes written last after the card was last stored anew or removed. -/
def lastNotes (uid : Key) (writes : List CardWrite) : Option String :=
  (Latest.since (notes uid) (replaces uid) writes).join

section Last

variable {uid : Key} {first second : List CardWrite}

end Last

/-- The field of a record that holds a string, or nothing. -/
def stored (text : Option String) : Node :=
  text.elim .empty fun text => .leaf (.string text)

variable {platform : Platform} {defaults : UserDefaults} {userRef : String} {uid : Key}
  {start server after final : Server} {write : CardWrite} {writes : List CardWrite} {record : Node}
  {history : List (Server × CardWrite)}

/-- The write request of a call. -/
def request (userRef : String) : CardWrite → DatabaseWrite
  -- A missing value removes its field.
  | saveCard name barcode autoId => newCardRequest userRef name barcode autoId
  | updateDataInDb key forCard =>
    .updateChildValues (DatabaseService.recordPath userRef key.text)
      [(Key.name, some (.string forCard.name)), (Key.barcode, some (.string forCard.barcode)),
       (Key.absoluteURL, forCard.absoluteURL.map .string)]
  | addNotesToDb key forCard =>
    .updateChildValues (DatabaseService.recordPath userRef key.text)
      [(Key.notes, forCard.notesText.map .string)]
  | removeDataFromDb key => removeRequest userRef key.text

/-- The card that a history of calls leaves under a uid, if its name and barcode are written. -/
def card (uid : Key) (writes : List CardWrite) : Option Card :=
  (lastValues uid writes).map fun (name, barcode) =>
    { uid := uid.text
      name := name
      barcode := barcode
      -- Decoding loads no picture.
      image := none
      absoluteURL := lastURL uid writes
      notesText := lastNotes uid writes }

end CardWrite

end CardGuru
