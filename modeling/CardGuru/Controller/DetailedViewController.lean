import CardGuru.Controller.HomeViewController
import CardGuru.Services.DatabaseService

/-! The detail and edit screens, which carry copies of the fields of one card. -/

namespace CardGuru

/-- The picture of a barcode, determined by the text it shows. -/
structure BarcodeImage where
  message : String
deriving DecidableEq

/-- The barcode picture of a text; only ASCII texts have one. -/
def generateBarcode (string : String) : Option BarcodeImage :=
  if string.toList.all fun c => c.toNat < 128 then some ⟨string⟩ else none

/-- The state of a `DetailedViewController`. -/
structure DetailedViewController where
  uid : String
  name : String
  barcode : String
  image : UIImage
  absoluteURL : String
  notesText : String
  barcodeGenerated : Option BarcodeImage
  nameLabel : String
  barcodeLabel : String
  imageView : Option UIImage
  barcodeImageView : Option BarcodeImage
  /-- Whether the three delegates are set; they are always set together, to the home screen. -/
  hasDelegates : Bool
deriving DecidableEq

/-- The state of an `EditCardTableViewController`. -/
structure EditCardTableViewController where
  uid : String
  name : String
  barcode : String
  image : UIImage
  absoluteURL : String
deriving DecidableEq

/-- What the device keeps about the card opened last. -/
structure Artefacts where
  /-- The title of the home-screen shortcut. -/
  shortcutTitle : Option String
  /-- The content of the file of the shortcut. -/
  shortcutItem : Option LastCard
  /-- The name in the defaults shared with the widget. -/
  widgetName : Option String
  /-- The picture in the defaults shared with the widget. -/
  widgetImageData : Option Data
deriving DecidableEq

namespace DetailedViewController

/-- The fields handed over by the screen that opens the detail screen. -/
def setDetailedCard (uid name barcode : String) (image : UIImage) (absoluteURL : String)
    (notes : Option String) (hasDelegates : Bool) : DetailedViewController where
  uid := uid
  name := name
  barcode := barcode
  image := image
  absoluteURL := absoluteURL
  notesText := notes.getD ""
  barcodeGenerated := generateBarcode barcode
  -- The outlets are filled when the view loads.
  nameLabel := ""
  barcodeLabel := ""
  imageView := none
  barcodeImageView := none
  hasDelegates := hasDelegates

/-- The view loads and its outlets are filled. -/
def viewDidLoad (detailed : DetailedViewController) : DetailedViewController :=
  { detailed with
    nameLabel := detailed.name
    barcodeLabel := detailed.barcode
    barcodeImageView := detailed.barcodeGenerated
    imageView := some detailed.image }

/-- Loading the view also records the card for the shortcut and the widget. -/
def recordLastCard (platform : Platform) (detailed : DetailedViewController)
    (artefacts : Artefacts) : Artefacts where
  shortcutTitle := some (platform.capitalized detailed.name)
  shortcutItem := some
    { name := platform.capitalized detailed.name
      barcode := detailed.barcode
      imageData := detailed.image.pngData }
  widgetName := some detailed.name
  -- A picture without encoding leaves the old one in place.
  widgetImageData := detailed.image.pngData.or artefacts.widgetImageData

/-- The card that saving notes reports and writes. -/
def notedCard (detailed : DetailedViewController) (notesText : String) : Card :=
  { Card.make detailed.uid detailed.name detailed.barcode detailed.image with
    notesText := some notesText }

/-- An edited card replaces the shown one. -/
def userDidUpdateData (detailed : DetailedViewController) (updated : Card) :
    DetailedViewController :=
  -- The barcode picture and the address of the stored picture stay the old ones.
  { detailed with
    nameLabel := updated.name
    barcodeLabel := updated.barcode
    imageView := updated.image
    name := updated.name
    barcode := updated.barcode
    image := updated.image.getD .shop }

/-- The edited card as it is passed on to the home screen. -/
def forwardedCard (detailed : DetailedViewController) (updated : Card) : Card :=
  Card.make detailed.uid updated.name updated.barcode (updated.image.getD .empty)

/-- The fields handed over to the edit screen. -/
def edit (detailed : DetailedViewController) : EditCardTableViewController where
  uid := detailed.uid
  name := detailed.name
  barcode := detailed.barcode
  image := detailed.image
  absoluteURL := detailed.absoluteURL

end DetailedViewController

namespace EditCardTableViewController

/-- Whether both text fields are filled. -/
def isEnteredDataValid (name barcode : String) : Bool :=
  !name.isEmpty && !barcode.isEmpty

/-- Delete the picture that was stored for the card when it was opened. -/
def removeOldCard (platform : Platform) (edit : EditCardTableViewController) (server : Server) :
    Except Fault Server :=
  -- The address is that of the moment of opening; a later upload is not known here.
  if edit.absoluteURL.isEmpty then .ok server
  else DatabaseService.removeImageFromStorage platform server edit.absoluteURL

end EditCardTableViewController

namespace HomeViewController

/-- The detail screen that a row opens; a row that no longer exists ends the program. -/
def detailedCard (home : HomeViewController) (row : Nat) : Except Fault DetailedViewController :=
  match home.cards with
  -- Without a list nothing is handed over.
  | none => .ok (DetailedViewController.setDetailedCard "" "" "" .empty "" none false)
  | some _ =>
    match home.displayedCards[row]? with
    | none => .error (.indexOutOfRange row home.displayedCards.length)
    | some ref =>
      let card := home.heap ref
      .ok (DetailedViewController.setDetailedCard card.uid card.name card.barcode
        (card.image.getD .shop) (card.absoluteURL.getD "") card.notesText true)

end HomeViewController

end CardGuru
