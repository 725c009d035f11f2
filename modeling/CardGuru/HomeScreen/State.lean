import CardGuru.Controller.DetailedViewController

/-! The home screen in operation: its visible cells, its picture downloads and what happens to it. -/

namespace CardGuru

/-- A cell of the list of cards. -/
structure CardCollectionViewCell where
  cellName : Option String
  cellImage : Option UIImage
deriving DecidableEq

namespace CardCollectionViewCell

/-- A cell that is used again shows nothing. -/
def prepareForReuse : CardCollectionViewCell where
  cellName := none
  cellImage := none

/-- The name and the picture of a card are put into the cell. -/
def setCell (_ : CardCollectionViewCell) (name : String) (image : UIImage) :
    CardCollectionViewCell where
  cellName := some name
  cellImage := some image

end CardCollectionViewCell

/-- A cell on the screen, with the card object that its row was configured with. -/
structure VisibleCell where
  card : CardRef
  cell : CardCollectionViewCell

/-- A picture download that has not ended, with what its completion captured. -/
structure Download where
  /-- The list that the loop went through. -/
  cards : List CardRef
  index : Nat
  card : CardRef
  url : String
deriving DecidableEq

/-- A home screen, its cells and the work that it has started. -/
structure HomeScreen where
  home : HomeViewController
  /-- The visible cell of a row, configured since the last `reloadData`. -/
  cells : Nat → Option VisibleCell
  downloads : List Download
  /-- Whether the load of `viewDidLoad` is still to be delivered. -/
  isLoading : Bool
  /-- The number of reloads that are still to be delivered. -/
  reloads : Nat
  /-- The detail screen that was filled last. -/
  opened : Option DetailedViewController

/-- What happens to a home screen. -/
inductive HomeEvent where
  /-- The cards read by the load of `viewDidLoad` arrive. -/
  | loadDelivered (cards : List Card)
  /-- A card was deleted, and the list is read again. -/
  | userDidRemoveData
  /-- The cards read after a deletion arrive. -/
  | reloadDelivered (cards : List Card)
  /-- A card was scanned or entered. -/
  | userDidEnterCard (card : Card)
  /-- A card was edited. -/
  | userDidUpdateData (updated : Card)
  /-- The notes of a card were saved. -/
  | userDidAddNotes (noted : Card)
  /-- The screen appears. -/
  | viewWillAppear
  /-- The search text or the activation of the search changes. -/
  | searchChanged (isActive : Bool) (text : String)
  /-- The collection view asks for the cell of a row. -/
  | cellForItemAt (row : Nat) (isConnectedToInternet : Bool)
  /-- The cell of a row leaves the screen. -/
  | didEndDisplaying (row : Nat)
  /-- The cell of a row is tapped. -/
  | prepare (row : Nat)
  /-- A download ends, with a picture unless it fails. -/
  | downloadFinished (position : Nat) (image : Option UIImage)
deriving DecidableEq

end CardGuru
