import CardGuru.Controller.DetailedViewController

/-! The running program as one state: the server, the defaults, the screens and the pending work. -/

namespace CardGuru

/-- The screen on top, with the screens below it as far as they hold cards. -/
inductive Screen where
  /-- A login or Touch ID screen; no home screen exists. -/
  | entry
  /-- The home screen. -/
  | home
  /-- The scanner above the home screen, and whether its delegate was set. -/
  | scanner (hasDelegate : Bool)
  /-- A detail screen above the home screen. -/
  | detailed (detailed : DetailedViewController)
  /-- An edit screen above the detail screen that opened it. -/
  | edit (edit : EditCardTableViewController) (detailed : DetailedViewController)
deriving DecidableEq

/-- A picture upload whose completion is still to come, with the card that its closure captured. -/
structure Upload where
  task : Nat
  path : StoragePath
  data : Data
  card : Card
deriving DecidableEq

/-- A load whose completion is still to come. -/
structure Load where
  task : Nat
  /-- The home screen whose closure takes the cards. -/
  home : Nat
  /-- Whether `viewDidLoad` started it, and not a deletion. -/
  initial : Bool
  path : Path
  /-- The cards, once the database has answered. -/
  snapshot : Option (List Card)
deriving DecidableEq

/-- How a picture upload ends. -/
inductive UploadResult where
  /-- The picture is stored and its download address is delivered. -/
  | stored (url : String)
  /-- The picture is stored, but asking for its download address fails. -/
  | downloadURLFailed (url : String)
  /-- Storing the picture fails, and then so does asking for its address. -/
  | putDataFailed
deriving DecidableEq

/-- The whole state of the program and of the services it uses. -/
structure App where
  server : Server
  defaults : UserDefaults
  home : HomeViewController
  screen : Screen
  uploads : List Upload
  loads : List Load
  nextTask : Nat
  nextHome : Nat
  /-- The storage paths of all uploads ever started. -/
  uploaded : List StoragePath
  artefacts : Artefacts

/-- What happens next: a step of the user, an answer of a service, or an event of the system. -/
inductive Action where
  /-- A home screen is created and its view loads. -/
  | homeViewDidLoad
  /-- The database answers a load with its current content. -/
  | snapshotRead (task : Nat)
  /-- The answer of a load reaches the main queue. -/
  | loadDelivered (task : Nat)
  /-- The search text or the activation of the search changes. -/
  | searchChanged (isActive : Bool) (text : String)
  /-- The scanner is opened from the home screen. -/
  | addCardSegue
  /-- A row of the home screen is tapped. -/
  | cellSegue (row : Nat)
  /-- A name is entered for a scanned barcode. -/
  | scanned (name barcode : String) (autoId : PushId)
  /-- A card is entered by hand. -/
  | addNewCard (name barcode : String) (autoId : PushId)
  /-- The notes of the detail screen are saved. -/
  | saveNotesClicked (text : String)
  /-- The edit screen is opened from the detail screen. -/
  | editSegue
  /-- The edit screen saves its fields; the picture gets an unused name. -/
  | saveCard (name barcode : String) (image : UIImage) (uuid : String)
  /-- The edit screen deletes its card. -/
  | deleteCard
  /-- The top screen is left. -/
  | back
  /-- A picture upload ends. -/
  | uploadFinished (task : Nat) (result : UploadResult)
  /-- The user signs out. -/
  | logoutPressed
  /-- A sign-in completes with a user. -/
  | signedIn (user : User)
  /-- The process is killed and started again. -/
  | launch
deriving DecidableEq

/-- A step that is only possible under a condition. -/
def offered {α : Type} (condition : Prop) [Decidable condition] (step : Except Fault α) :
    Except Fault α :=
  if condition then step else .error .unavailable

/-- A conditional step that happens does so under its condition. -/
theorem offered_ok {α : Type} {condition : Prop} [Decidable condition] {step : Except Fault α}
    {result : α} (done : offered condition step = .ok result) :
    condition ∧ step = .ok result := by
  -- Otherwise the step would not have happened.
  unfold offered at done
  split at done
  · rename_i holds
    exact ⟨holds, done⟩
  · cases done

end CardGuru
