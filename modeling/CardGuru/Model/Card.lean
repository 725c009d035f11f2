import CardGuru.Firebase.Database

/-! Users, cards and their pictures, and the decoding of a card from a database record. -/

namespace CardGuru

/-- Pictures, as far as the program tells them apart. -/
inductive UIImage where
  /-- The picture without content, `UIImage()`. -/
  | empty
  /-- The bundled placeholder picture, `UIImage(named: "shop")`. -/
  | shop
  /-- A picture taken by the camera or picked from the library. -/
  | photo (content : Nat)
  /-- A picture scaled to the size of stored pictures. -/
  | scaled (image : UIImage)
  /-- The picture decoded from the encoding of another one. -/
  | decoded (image : UIImage)
deriving DecidableEq

/-- Encoded pictures. -/
inductive Data where
  /-- No bytes at all. -/
  | empty
  /-- The PNG encoding of a picture. -/
  | png (image : UIImage)
deriving DecidableEq

/-- The PNG encoding of a picture, when it has one. -/
def UIImage.pngData : UIImage → Option Data
  -- A picture without content has no encoding.
  | .empty => none
  | image => some (.png image)

/-- The picture that some bytes encode, if any. -/
def UIImage.ofData : Data → Option UIImage
  -- No bytes encode no picture.
  | .empty => none
  | .png image => some (.decoded image)

/-- A signed-in user. -/
structure User where
  name : String
  email : String
  absoluteURL : Option String
deriving DecidableEq

/-- A card as the screens hold it. -/
structure Card where
  uid : String
  name : String
  barcode : String
  image : Option UIImage
  absoluteURL : Option String
  notesText : Option String
deriving DecidableEq

/-- The card last opened, as the file of the home-screen shortcut stores it. -/
structure LastCard where
  name : String
  barcode : String
  imageData : Option Data
deriving DecidableEq

/-- The field of a record that holds the name. -/
def Key.name : Key := ⟨"name", by decide⟩

/-- The field of a record that holds the barcode. -/
def Key.barcode : Key := ⟨"barcode", by decide⟩

/-- The field of a record that holds the address of the stored picture. -/
def Key.absoluteURL : Key := ⟨"absoluteURL", by decide⟩

/-- The field of a record that holds the notes. -/
def Key.notes : Key := ⟨"notes", by decide⟩

namespace Card

/-- A card made by the program itself has neither a stored picture nor notes. -/
def make (uid name barcode : String) (image : UIImage) : Card where
  uid := uid
  name := name
  barcode := barcode
  image := some image
  absoluteURL := none
  notesText := none

/-- Decode a record; it must hold a name and a barcode that are strings. -/
def ofSnapshot (key : Key) (value : Node) : Option Card :=
  match Node.string? (value.child Key.name), Node.string? (value.child Key.barcode) with
  | some name, some barcode =>
    -- The other two fields are read if they are strings, and no picture is loaded yet.
    some
      { uid := key.text
        name := name
        barcode := barcode
        image := none
        absoluteURL := Node.string? (value.child Key.absoluteURL)
        notesText := Node.string? (value.child Key.notes) }
  | _, _ => none

/-- The fields that decoding a record reads. -/
def fields : List Key := [Key.name, Key.barcode, Key.absoluteURL, Key.notes]

/-- A decoded card carries the key of its record. -/
theorem uid_of_ofSnapshot {key : Key} {value : Node} {card : Card}
    (decoded : ofSnapshot key value = some card) : card.uid = key.text := by
  -- Only the successful branch gives a card.
  unfold ofSnapshot at decoded
  split at decoded
  · cases decoded
    rfl
  · cases decoded

/-- What the lists of cards are compared by. -/
structure View where
  uid : String
  name : String
  barcode : String
  notesText : Option String
deriving DecidableEq

/-- The part of a card that does not concern its picture. -/
def view (card : Card) : View where
  uid := card.uid
  name := card.name
  barcode := card.barcode
  notesText := card.notesText

end Card

/-- The cards in a folder of records, in key order; records that do not decode are dropped. -/
def Node.cards (records : Node) : List Card :=
  records.entries.filterMap fun entry => Card.ofSnapshot entry.1 entry.2

end CardGuru
