import CardGuru.App.State
import CardGuru.Lib.Run

/-! The steps of the program: what each action does to the whole state. The pictures that cells download are
not delivered here but on the home screen by itself, so that a listed card has no picture but the one with which
it was entered or edited. -/

namespace CardGuru

namespace App

/-- Start reading the cards of the current user for the present home screen. -/
def startLoad (app : App) (initial : Bool) : Except Fault App := do
  match ← DatabaseService.loadDataFromDb app.defaults with
  -- Without a user the completion is never called.
  | none => return app
  | some path =>
    let load : Load :=
      { task := app.nextTask, home := app.home.id, initial := initial, path := path,
        snapshot := none }
    return { app with loads := app.loads ++ [load], nextTask := app.nextTask + 1 }

/-- A home screen replaces whatever was shown, and its first load starts. -/
def homeViewDidLoad (app : App) : Except Fault App :=
  -- The load belongs to the new screen, which has no list until it is delivered.
  startLoad
    { app with
      home := .new app.nextHome
      nextHome := app.nextHome + 1
      screen := .home }
    true

/-- The database answers a load that it has not answered yet. -/
def snapshotRead (app : App) (task : Nat) : Except Fault App :=
  -- The cards are those of this moment, and not of the moment of delivery.
  offered (∃ load ∈ app.loads, load.task = task ∧ load.snapshot = none) <|
    .ok { app with
      loads := app.loads.map fun load =>
        if load.task = task then
          { load with snapshot := some (Node.cards (app.server.database.get load.path)) }
        else load }

/-- The completion of an answered load runs; only its own home screen is concerned. -/
def loadDelivered (app : App) (task : Nat) : Except Fault App :=
  match app.loads.find? fun load => load.task = task with
  | some { home := home, initial := initial, snapshot := some cards, .. } =>
    -- Whatever comes of it, the load is not delivered again.
    let rest := { app with loads := app.loads.filter fun load => load.task ≠ task }
    if home = app.home.id then
      .ok { rest with
        home :=
          if initial then app.home.viewDidLoadCompletion cards
          else app.home.userDidRemoveDataCompletion cards }
    -- The screen of the load is gone, and nobody sees what it brings.
    else .ok rest
  | _ => .error .unavailable

/-- Return to the home screen. -/
def popToRoot (app : App) : App :=
  { app with screen := .home, home := app.home.viewWillAppear }

/-- No record was ever written under the generated key of the current user. -/
def isFreshId (app : App) (autoId : PushId) : Bool :=
  -- A generated key is new at the place where the record is to be stored.
  match DatabaseService.getCurrentUserRef app.defaults with
  | none => true
  | some userRef =>
    let path := DatabaseService.cardsPath userRef ++ [autoId.key]
    (app.server.database.get path).isEmpty &&
      app.server.writes.all fun write => write.path ≠ path

/-- Store a new card and report it to the home screen, if the delegate is set. -/
def saveToDbAndNotify (app : App) (hasDelegate : Bool) (name barcode : String) (autoId : PushId) :
    Except Fault App :=
  -- The record is stored before the home screen hears of it.
  offered (app.isFreshId autoId = true) do
    let (server, cardId) ← DatabaseService.saveCard app.defaults app.server
      [(Key.name, .string name), (Key.barcode, .string barcode)] autoId
    let home :=
      if hasDelegate then app.home.userDidEnterCard (Card.make cardId name barcode .shop)
      else app.home
    return popToRoot { app with server := server, home := home }

/-- A name is entered for a scanned barcode; an empty one is replaced. -/
def scanned (app : App) (name barcode : String) (autoId : PushId) : Except Fault App :=
  -- Only the scanner asks for a name.
  match app.screen with
  | .scanner hasDelegate =>
    app.saveToDbAndNotify hasDelegate (if name.isEmpty then "Unknown" else name) barcode autoId
  | _ => .error .unavailable

/-- A card is entered by hand; with an empty field only an alert is shown. -/
def addNewCard (app : App) (name barcode : String) (autoId : PushId) : Except Fault App :=
  -- Unlike a scanned card, this one may be refused.
  match app.screen with
  | .scanner hasDelegate =>
    if name.isEmpty || barcode.isEmpty then .ok app
    else app.saveToDbAndNotify hasDelegate name barcode autoId
  | _ => .error .unavailable

/-- A row is tapped and the detail screen of its card opens. -/
def cellSegue (platform : Platform) (app : App) (row : Nat) : Except Fault App :=
  -- The opened card also becomes the last card of the device.
  offered (app.screen = .home ∧ row < app.home.rowCount) do
    let opened ← app.home.detailedCard row
    let detailed := opened.viewDidLoad
    return { app with
      screen := .detailed detailed
      artefacts := detailed.recordLastCard platform app.artefacts }

/-- The notes are reported to the home screen and written into the record. -/
def saveNotesClicked (platform : Platform) (app : App) (text : String) : Except Fault App :=
  match app.screen with
  | .detailed detailed => do
    let updatedCard := detailed.notedCard text
    -- The home screen is told before the record is written.
    let home :=
      if detailed.hasDelegates then app.home.userDidAddNotes platform updatedCard else app.home
    let server ← DatabaseService.addNotesToDb app.defaults app.server updatedCard
    return { app with
      server := server
      home := home
      screen := .detailed { detailed with notesText := text } }
  | _ => .error .unavailable

/-- Delete the old picture, start the upload of the new one and report the edited card. -/
def updateCardInDbAndNotify (platform : Platform) (app : App)
    (edit : EditCardTableViewController) (detailed : DetailedViewController) (card : Card)
    (image : UIImage) (uuid : String) : Except Fault App := do
  let server ← edit.removeOldCard platform app.server
  let started := DatabaseService.saveCardImage app.defaults image uuid
  let home :=
    if detailed.hasDelegates then app.home.userDidUpdateData platform (detailed.forwardedCard card)
    else app.home
  return { app with
    server := server
    uploads := app.uploads ++ started.toList.map fun (path, data) =>
      { task := app.nextTask, path := path, data := data, card := card }
    nextTask := app.nextTask + 1
    uploaded := app.uploaded ++ started.toList.map Prod.fst
    home := home
    -- The edit screen is left right away.
    screen := .detailed (detailed.userDidUpdateData card) }

/-- The name of the new picture was never used before. -/
def isFreshUpload (app : App) (uuid : String) : Bool :=
  (DatabaseService.saveCardImage app.defaults .shop uuid).all fun (path, _) =>
    !app.uploaded.contains path && app.server.objects.all fun stored => stored.path ≠ path

/-- The edit screen saves its fields; with an empty field only an alert is shown. -/
def saveCard (platform : Platform) (app : App) (name barcode : String) (image : UIImage)
    (uuid : String) : Except Fault App :=
  -- The edited card keeps its uid and loses its notes.
  match app.screen with
  | .edit edit detailed =>
    if EditCardTableViewController.isEnteredDataValid name barcode then
      offered (app.isFreshUpload uuid = true) <|
        app.updateCardInDbAndNotify platform edit detailed (Card.make edit.uid name barcode image)
          image uuid
    else .ok app
  | _ => .error .unavailable

/-- The home screen loads its list again, if the detail screen has it as its delegate. -/
def userDidRemoveData (app : App) (hasDelegates : Bool) : Except Fault App :=
  if hasDelegates then app.startLoad false else .ok app

/-- The picture and the record are deleted, and the home screen loads its list again. -/
def deleteCard (platform : Platform) (app : App) : Except Fault App :=
  match app.screen with
  -- The stored picture goes first, then the record.
  | .edit edit detailed => do
    let server ← edit.removeOldCard platform app.server
    let server ← DatabaseService.removeDataFromDb app.defaults server edit.uid
    let reloading ← userDidRemoveData { app with server := server } detailed.hasDelegates
    return reloading.popToRoot
  | _ => .error .unavailable

/-- The top screen is left. -/
def back (app : App) : Except Fault App :=
  -- The edit screen gives way to the detail screen that opened it.
  match app.screen with
  | .edit _ detailed => .ok { app with screen := .detailed detailed }
  | .detailed _ => .ok app.popToRoot
  | .scanner _ => .ok app.popToRoot
  | _ => .error .unavailable

/-- The completion of an upload writes the edited card, if there is an address to write. -/
def uploadFinished (platform : Platform) (app : App) (task : Nat) (result : UploadResult) :
    Except Fault App :=
  match app.uploads.find? fun upload => upload.task = task with
  | none => .error .unavailable
  | some upload =>
    -- However it ends, the upload is not pending any more.
    let rest := { app with uploads := app.uploads.filter fun other => other.task ≠ task }
    match result with
    | .putDataFailed => .ok rest
    | .downloadURLFailed url =>
      offered (platform.referenceForURL url = .ok upload.path) <|
        .ok { rest with server := app.server.putData ⟨upload.path, upload.data, url⟩ }
    | .stored url =>
      -- The address reaches the record only now.
      offered (platform.referenceForURL url = .ok upload.path) do
        let server ← DatabaseService.updateDataInDb app.defaults
          (app.server.putData ⟨upload.path, upload.data, url⟩)
          { upload.card with absoluteURL := some url }
        return { rest with server := server }

/-- The user signs out and the login screen replaces all others. -/
def logoutPressed (app : App) : Except Fault App :=
  offered (app.screen ≠ .entry) <|
    .ok { app with defaults := app.defaults.saveLoggedState false, screen := .entry }

/-- The signed-in user is stored, and the home screen opens. -/
def signedIn (app : App) (user : User) : Except Fault App :=
  offered (app.screen = .entry) <|
    homeViewDidLoad { app with defaults := (app.defaults.saveLoggedState true).save user }

/-- A new process keeps what is stored and loses what was pending. -/
def launch (app : App) : Except Fault App :=
  .ok { app with uploads := [], loads := [], screen := .entry }

/-- What one action does. -/
def step (platform : Platform) (app : App) : Action → Except Fault App
  | .homeViewDidLoad => app.homeViewDidLoad
  | .snapshotRead task => app.snapshotRead task
  | .loadDelivered task => app.loadDelivered task
  | .searchChanged isActive text =>
    offered (app.screen = .home) <|
      .ok { app with home := app.home.updateSearchResults platform isActive text }
  | .addCardSegue =>
    -- The delegate is set only if the list is loaded by then.
    offered (app.screen = .home) <| .ok { app with screen := .scanner app.home.cards.isSome }
  | .cellSegue row => app.cellSegue platform row
  | .scanned name barcode autoId => app.scanned name barcode autoId
  | .addNewCard name barcode autoId => app.addNewCard name barcode autoId
  | .saveNotesClicked text => app.saveNotesClicked platform text
  | .editSegue =>
    match app.screen with
    | .detailed detailed => .ok { app with screen := .edit detailed.edit detailed }
    | _ => .error .unavailable
  | .saveCard name barcode image uuid => app.saveCard platform name barcode image uuid
  | .deleteCard => app.deleteCard platform
  | .back => app.back
  | .uploadFinished task result => app.uploadFinished platform task result
  | .logoutPressed => app.logoutPressed
  | .signedIn user => app.signedIn user
  | .launch => app.launch

/-- A process that has just started on a device, before any screen shows cards. -/
def launched (server : Server) (defaults : UserDefaults) : App where
  -- What was pending in the process before is lost with it.
  server := server
  defaults := defaults
  home := .new 0
  screen := .entry
  uploads := []
  loads := []
  nextTask := 0
  nextHome := 1
  uploaded := []
  artefacts :=
    { shortcutTitle := none, shortcutItem := none, widgetName := none, widgetImageData := none }

/-- The state after an action, unless it is not possible or ends the program. -/
def next (platform : Platform) (app : App) (action : Action) : Option App :=
  (app.step platform action).toOption

end App

end CardGuru
