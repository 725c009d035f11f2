import CardGuru.App.Step

/-! What each step of the program can do, read off once for all later arguments. -/

namespace CardGuru

namespace App

variable {platform : Platform} {app after : App}

/-- A step leads to a state exactly when it neither fails nor ends the program. -/
theorem next_eq_some {action : Action} :
    app.next platform action = some after ↔ app.step platform action = .ok after := by
  -- Faults are forgotten.
  unfold next
  cases app.step platform action with
  | error fault => simp [Except.toOption]
  | ok result => simp [Except.toOption]

/-- A load of the current user is pending, if there is a user. -/
def withLoad (app : App) (initial : Bool) : App :=
  -- Without a user nothing is read.
  match DatabaseService.getCurrentUserRef app.defaults with
  | none => app
  | some userRef =>
    { app with
      loads := app.loads ++
        [{ task := app.nextTask, home := app.home.id, initial := initial,
           path := DatabaseService.cardsPath userRef, snapshot := none }]
      nextTask := app.nextTask + 1 }

/-- Starting a load adds a pending load and changes nothing else. -/
theorem startLoad_ok {initial : Bool} (done : app.startLoad initial = .ok after) :
    after = app.withLoad initial := by
  -- The load is refused exactly when there is no user to read for.
  obtain ⟨found, located, continued⟩ := bind_ok done
  unfold DatabaseService.loadDataFromDb at located
  unfold withLoad
  cases current : DatabaseService.getCurrentUserRef app.defaults with
  | none =>
    simp only [current] at located
    cases located
    cases continued
    rfl
  | some userRef =>
    simp only [current] at located
    cases cards : DatabaseService.cardsRef userRef with
    | error fault =>
      rw [cards] at located
      cases located
    | ok path =>
      obtain ⟨_, rfl⟩ := DatabaseService.cardsRef_ok cards
      rw [cards] at located
      cases located
      cases continued
      rfl

/-- The state after a deletion asks for the list again, if the home screen is the delegate. -/
def reloading (app : App) (hasDelegates : Bool) : App :=
  if hasDelegates then app.withLoad false else app

/-- Reloading after a deletion adds at most a pending load. -/
theorem userDidRemoveData_ok {hasDelegates : Bool}
    (done : app.userDidRemoveData hasDelegates = .ok after) : after = app.reloading hasDelegates := by
  -- Without delegates nothing happens at all.
  unfold userDidRemoveData at done
  unfold reloading
  cases hasDelegates with
  | false =>
    cases done
    rfl
  | true => exact startLoad_ok done

section Frame

variable (app : App) (flag : Bool)

@[simp] theorem server_withLoad : (app.withLoad flag).server = app.server := by
  unfold withLoad
  split <;> rfl

@[simp] theorem defaults_withLoad : (app.withLoad flag).defaults = app.defaults := by
  unfold withLoad
  split <;> rfl

@[simp] theorem home_withLoad : (app.withLoad flag).home = app.home := by
  unfold withLoad
  split <;> rfl

@[simp] theorem screen_withLoad : (app.withLoad flag).screen = app.screen := by
  unfold withLoad
  split <;> rfl

@[simp] theorem uploads_withLoad : (app.withLoad flag).uploads = app.uploads := by
  unfold withLoad
  split <;> rfl

@[simp] theorem artefacts_withLoad : (app.withLoad flag).artefacts = app.artefacts := by
  unfold withLoad
  split <;> rfl

@[simp] theorem uploaded_withLoad : (app.withLoad flag).uploaded = app.uploaded := by
  unfold withLoad
  split <;> rfl

/-- Only a load that starts takes a task number. -/
theorem nextTask_withLoad :
    (app.withLoad flag).nextTask =
      app.nextTask + (DatabaseService.getCurrentUserRef app.defaults).toList.length := by
  -- A load starts exactly if there is a user.
  unfold withLoad
  split <;> simp [*]

@[simp] theorem server_reloading : (app.reloading flag).server = app.server := by
  unfold reloading
  split <;> simp

@[simp] theorem defaults_reloading : (app.reloading flag).defaults = app.defaults := by
  unfold reloading
  split <;> simp

@[simp] theorem home_reloading : (app.reloading flag).home = app.home := by
  unfold reloading
  split <;> simp

@[simp] theorem uploads_reloading : (app.reloading flag).uploads = app.uploads := by
  unfold reloading
  split <;> simp

@[simp] theorem artefacts_reloading : (app.reloading flag).artefacts = app.artefacts := by
  unfold reloading
  split <;> simp

@[simp] theorem uploaded_reloading : (app.reloading flag).uploaded = app.uploaded := by
  unfold reloading
  split <;> simp

end Frame

/-- Only an answered load is delivered, and it leaves the pending loads. -/
theorem loadDelivered_ok {task : Nat} (done : app.loadDelivered task = .ok after) :
    ∃ load cards, app.loads.find? (fun load => load.task = task) = some load ∧
      load.snapshot = some cards ∧
      after = { app with
        loads := app.loads.filter fun load => load.task ≠ task
        home :=
          if load.home = app.home.id then
            if load.initial then app.home.viewDidLoadCompletion cards
            else app.home.userDidRemoveDataCompletion cards
          else app.home } := by
  -- A load without a snapshot, or an unknown task, is not offered.
  unfold loadDelivered at done
  split at done
  · rename_i loadTask home initial path cards found
    refine ⟨_, cards, found, rfl, ?_⟩
    by_cases same : home = app.home.id
    · simp only [same, if_true] at done
      cases done
      simp [same]
    · simp only [same, if_false] at done
      cases done
      simp [same]
  · cases done

/-- A new card is stored and then reported if the delegate is set. -/
theorem saveToDbAndNotify_ok {hasDelegate : Bool} {name barcode : String} {autoId : PushId}
    (done : app.saveToDbAndNotify hasDelegate name barcode autoId = .ok after) :
    ∃ server cardId, app.isFreshId autoId = true ∧
      DatabaseService.saveCard app.defaults app.server
        [(Key.name, .string name), (Key.barcode, .string barcode)] autoId = .ok (server, cardId) ∧
      after = popToRoot { app with
        server := server
        home :=
          if hasDelegate then app.home.userDidEnterCard (Card.make cardId name barcode .shop)
          else app.home } := by
  -- The record is written before the list is told.
  obtain ⟨fresh, saved⟩ := offered_ok done
  obtain ⟨⟨server, cardId⟩, stored, continued⟩ := bind_ok saved
  cases continued
  exact ⟨server, cardId, fresh, stored, rfl⟩

/-- A scanned card is stored from the scanner screen. -/
theorem scanned_ok {name barcode : String} {autoId : PushId}
    (done : app.scanned name barcode autoId = .ok after) :
    ∃ hasDelegate, app.screen = .scanner hasDelegate ∧
      app.saveToDbAndNotify hasDelegate (if name.isEmpty then "Unknown" else name) barcode autoId =
        .ok after := by
  -- No other screen scans.
  unfold scanned at done
  split at done
  · rename_i hasDelegate shown
    exact ⟨hasDelegate, shown, done⟩
  · cases done

/-- An entered card is stored from the scanner screen, unless a field is empty. -/
theorem addNewCard_ok {name barcode : String} {autoId : PushId}
    (done : app.addNewCard name barcode autoId = .ok after) :
    ∃ hasDelegate, app.screen = .scanner hasDelegate ∧
      (after = app ∧ (name.isEmpty || barcode.isEmpty) = true ∨
        (name.isEmpty || barcode.isEmpty) = false ∧
        app.saveToDbAndNotify hasDelegate name barcode autoId = .ok after) := by
  -- An empty field leaves everything as it is.
  unfold addNewCard at done
  split at done
  · rename_i hasDelegate shown
    refine ⟨hasDelegate, shown, ?_⟩
    split at done
    · rename_i missing
      cases done
      exact .inl ⟨rfl, missing⟩
    · rename_i filled
      exact .inr ⟨by simpa using filled, done⟩
  · cases done

/-- A tapped row opens the detail screen that the home screen fills. -/
theorem cellSegue_ok {row : Nat} (done : app.cellSegue platform row = .ok after) :
    ∃ opened, app.screen = .home ∧ row < app.home.rowCount ∧
      app.home.detailedCard row = .ok opened ∧
      after = { app with
        screen := .detailed opened.viewDidLoad
        artefacts := opened.viewDidLoad.recordLastCard platform app.artefacts } := by
  -- Rows are tapped on the home screen only.
  obtain ⟨⟨shown, inside⟩, tapped⟩ := offered_ok done
  obtain ⟨opened, filled, continued⟩ := bind_ok tapped
  cases continued
  exact ⟨opened, shown, inside, filled, rfl⟩

/-- Saved notes are reported and then written. -/
theorem saveNotesClicked_ok {text : String} (done : app.saveNotesClicked platform text = .ok after) :
    ∃ detailed server, app.screen = .detailed detailed ∧
      DatabaseService.addNotesToDb app.defaults app.server (detailed.notedCard text) = .ok server ∧
      after = { app with
        server := server
        home :=
          if detailed.hasDelegates then app.home.userDidAddNotes platform (detailed.notedCard text)
          else app.home
        screen := .detailed { detailed with notesText := text } } := by
  -- The notes are saved on the detail screen only.
  unfold saveNotesClicked at done
  split at done
  · rename_i detailed shown
    obtain ⟨server, written, continued⟩ := bind_ok done
    cases continued
    exact ⟨detailed, server, shown, written, rfl⟩
  · cases done

/-- A save with filled fields deletes the old picture and starts the upload of the new one. -/
theorem saveCard_ok {name barcode : String} {image : UIImage} {uuid : String}
    (done : app.saveCard platform name barcode image uuid = .ok after) :
    ∃ edit detailed, app.screen = .edit edit detailed ∧
      (after = app ∧ EditCardTableViewController.isEnteredDataValid name barcode = false ∨
        ∃ server, EditCardTableViewController.isEnteredDataValid name barcode = true ∧
          app.isFreshUpload uuid = true ∧ edit.removeOldCard platform app.server = .ok server ∧
          after = { app with
            server := server
            uploads := app.uploads ++
              (DatabaseService.saveCardImage app.defaults image uuid).toList.map fun (path, data) =>
                { task := app.nextTask, path := path, data := data,
                  card := Card.make edit.uid name barcode image }
            nextTask := app.nextTask + 1
            uploaded := app.uploaded ++
              (DatabaseService.saveCardImage app.defaults image uuid).toList.map Prod.fst
            home :=
              if detailed.hasDelegates then
                app.home.userDidUpdateData platform
                  (detailed.forwardedCard (Card.make edit.uid name barcode image))
              else app.home
            screen :=
              .detailed (detailed.userDidUpdateData (Card.make edit.uid name barcode image)) }) := by
  -- An empty field leaves everything as it is.
  unfold saveCard at done
  split at done
  · rename_i edit detailed shown
    refine ⟨edit, detailed, shown, ?_⟩
    split at done
    · rename_i filled
      right
      obtain ⟨fresh, updated⟩ := offered_ok done
      obtain ⟨server, removed, continued⟩ := bind_ok updated
      cases continued
      exact ⟨server, filled, fresh, removed, rfl⟩
    · rename_i missing
      left
      cases done
      exact ⟨rfl, by simpa using missing⟩
  · cases done

/-- A deletion removes the old picture and the record, and starts a load. -/
theorem deleteCard_ok (done : app.deleteCard platform = .ok after) :
    ∃ edit detailed cleaned server, app.screen = .edit edit detailed ∧
      edit.removeOldCard platform app.server = .ok cleaned ∧
      DatabaseService.removeDataFromDb app.defaults cleaned edit.uid = .ok server ∧
      after = (reloading { app with server := server } detailed.hasDelegates).popToRoot := by
  -- Cards are deleted on the edit screen only.
  unfold deleteCard at done
  split at done
  · rename_i edit detailed shown
    obtain ⟨cleaned, removed, first⟩ := bind_ok done
    obtain ⟨server, deleted, second⟩ := bind_ok first
    obtain ⟨reloading, started, third⟩ := bind_ok second
    obtain rfl := userDidRemoveData_ok started
    cases third
    exact ⟨edit, detailed, cleaned, server, shown, removed, deleted, rfl⟩
  · cases done

/-- Leaving a screen changes the server and the pending work in no way. -/
theorem back_ok (done : app.back = .ok after) :
    (∃ edit detailed, app.screen = .edit edit detailed ∧
      after = { app with screen := .detailed detailed }) ∨
    ((∃ detailed, app.screen = .detailed detailed) ∨ (∃ hasDelegate, app.screen = .scanner hasDelegate)) ∧
      after = app.popToRoot := by
  -- The home screen and the screens before it cannot be left this way.
  unfold back at done
  split at done
  · rename_i edit detailed shown
    cases done
    exact .inl ⟨edit, detailed, shown, rfl⟩
  · rename_i detailed shown
    cases done
    exact .inr ⟨.inl ⟨detailed, shown⟩, rfl⟩
  · rename_i hasDelegate shown
    cases done
    exact .inr ⟨.inr ⟨hasDelegate, shown⟩, rfl⟩
  · cases done

/-- A finished upload leaves the pending ones; only a delivered address writes the record. -/
theorem uploadFinished_ok {task : Nat} {result : UploadResult}
    (done : app.uploadFinished platform task result = .ok after) :
    ∃ upload server, app.uploads.find? (fun upload => upload.task = task) = some upload ∧
      after = { app with
        uploads := app.uploads.filter fun other => other.task ≠ task
        server := server } ∧
      ((result = .putDataFailed ∧ server = app.server) ∨
        (∃ url, result = .downloadURLFailed url ∧
          platform.referenceForURL url = .ok upload.path ∧
          server = app.server.putData ⟨upload.path, upload.data, url⟩) ∨
        ∃ url, result = .stored url ∧ platform.referenceForURL url = .ok upload.path ∧
          DatabaseService.updateDataInDb app.defaults
            (app.server.putData ⟨upload.path, upload.data, url⟩)
            { upload.card with absoluteURL := some url } = .ok server) := by
  -- The three results differ in what reaches the server.
  unfold uploadFinished at done
  split at done
  · cases done
  · rename_i upload found
    refine ⟨upload, ?_⟩
    split at done
    · cases done
      exact ⟨_, found, rfl, .inl ⟨rfl, rfl⟩⟩
    · rename_i url
      obtain ⟨named, stored⟩ := offered_ok done
      cases stored
      exact ⟨_, found, rfl, .inr (.inl ⟨url, rfl, named, rfl⟩)⟩
    · rename_i url
      obtain ⟨named, stored⟩ := offered_ok done
      obtain ⟨server, written, continued⟩ := bind_ok stored
      cases continued
      exact ⟨server, found, rfl, .inr (.inr ⟨url, rfl, named, written⟩)⟩

/-- The state after a new card was stored on the server and reported to the home screen. -/
def added (app : App) (hasDelegate : Bool) (server : Server) (card : Card) : App :=
  -- The home screen appears after the card was reported to it.
  popToRoot { app with
    server := server
    home := if hasDelegate then app.home.userDidEnterCard card else app.home }

/-- The state after an edited card was reported and the upload of its picture was started. -/
def saved (platform : Platform) (app : App) (detailed : DetailedViewController) (server : Server)
    (card : Card) (started : Option (StoragePath × Data)) : App :=
  -- Without a user no upload starts, but the card is reported all the same.
  { app with
    server := server
    uploads := app.uploads ++ started.toList.map fun (path, data) =>
      { task := app.nextTask, path := path, data := data, card := card }
    nextTask := app.nextTask + 1
    uploaded := app.uploaded ++ started.toList.map Prod.fst
    home :=
      if detailed.hasDelegates then app.home.userDidUpdateData platform (detailed.forwardedCard card)
      else app.home
    screen := .detailed (detailed.userDidUpdateData card) }

/-- All that a step can do, with the conditions under which it does so. -/
inductive Steps (platform : Platform) (app : App) : Action → App → Prop where
  | homeViewDidLoad :
    Steps platform app .homeViewDidLoad <|
      withLoad
        { app with home := .new app.nextHome, nextHome := app.nextHome + 1, screen := .home } true
  | snapshotRead {task : Nat} (asked : ∃ load ∈ app.loads, load.task = task ∧ load.snapshot = none) :
    Steps platform app (.snapshotRead task)
      { app with
        loads := app.loads.map fun load =>
          if load.task = task then
            { load with snapshot := some (Node.cards (app.server.database.get load.path)) }
          else load }
  | loadDelivered {task : Nat} {load : Load} {cards : List Card}
    (found : app.loads.find? (fun load => load.task = task) = some load)
    (answered : load.snapshot = some cards) :
    Steps platform app (.loadDelivered task)
      { app with
        loads := app.loads.filter fun load => load.task ≠ task
        home :=
          if load.home = app.home.id then
            if load.initial then app.home.viewDidLoadCompletion cards
            else app.home.userDidRemoveDataCompletion cards
          else app.home }
  | searchChanged {isActive : Bool} {text : String} (shown : app.screen = .home) :
    Steps platform app (.searchChanged isActive text)
      { app with home := app.home.updateSearchResults platform isActive text }
  | addCardSegue (shown : app.screen = .home) :
    Steps platform app .addCardSegue { app with screen := .scanner app.home.cards.isSome }
  | cellSegue {row : Nat} {opened : DetailedViewController} (shown : app.screen = .home)
    (inside : row < app.home.rowCount) (filled : app.home.detailedCard row = .ok opened) :
    Steps platform app (.cellSegue row)
      { app with
        screen := .detailed opened.viewDidLoad
        artefacts := opened.viewDidLoad.recordLastCard platform app.artefacts }
  | scanned {hasDelegate : Bool} {name barcode cardId : String} {autoId : PushId} {server : Server}
    (shown : app.screen = .scanner hasDelegate) (fresh : app.isFreshId autoId = true)
    (stored : DatabaseService.saveCard app.defaults app.server
      [(Key.name, .string (if name.isEmpty then "Unknown" else name)),
       (Key.barcode, .string barcode)] autoId = .ok (server, cardId)) :
    Steps platform app (.scanned name barcode autoId)
      (app.added hasDelegate server
        (Card.make cardId (if name.isEmpty then "Unknown" else name) barcode .shop))
  | addNewCard {hasDelegate : Bool} {name barcode cardId : String} {autoId : PushId}
    {server : Server} (shown : app.screen = .scanner hasDelegate)
    (filled : (name.isEmpty || barcode.isEmpty) = false) (fresh : app.isFreshId autoId = true)
    (stored : DatabaseService.saveCard app.defaults app.server
      [(Key.name, .string name), (Key.barcode, .string barcode)] autoId = .ok (server, cardId)) :
    Steps platform app (.addNewCard name barcode autoId)
      (app.added hasDelegate server (Card.make cardId name barcode .shop))
  | addNewCardAlert {hasDelegate : Bool} {name barcode : String} {autoId : PushId}
    (shown : app.screen = .scanner hasDelegate)
    (missing : (name.isEmpty || barcode.isEmpty) = true) :
    Steps platform app (.addNewCard name barcode autoId) app
  | saveNotesClicked {detailed : DetailedViewController} {server : Server} {text : String}
    (shown : app.screen = .detailed detailed)
    (written : DatabaseService.addNotesToDb app.defaults app.server (detailed.notedCard text) =
      .ok server) :
    Steps platform app (.saveNotesClicked text)
      { app with
        server := server
        home :=
          if detailed.hasDelegates then app.home.userDidAddNotes platform (detailed.notedCard text)
          else app.home
        screen := .detailed { detailed with notesText := text } }
  | editSegue {detailed : DetailedViewController} (shown : app.screen = .detailed detailed) :
    Steps platform app .editSegue { app with screen := .edit detailed.edit detailed }
  | saveCard {edit : EditCardTableViewController} {detailed : DetailedViewController}
    {server : Server} {name barcode uuid : String} {image : UIImage}
    (shown : app.screen = .edit edit detailed)
    (filled : EditCardTableViewController.isEnteredDataValid name barcode = true)
    (fresh : app.isFreshUpload uuid = true)
    (removed : edit.removeOldCard platform app.server = .ok server) :
    Steps platform app (.saveCard name barcode image uuid)
      (app.saved platform detailed server (Card.make edit.uid name barcode image)
        (DatabaseService.saveCardImage app.defaults image uuid))
  | saveCardAlert {edit : EditCardTableViewController} {detailed : DetailedViewController}
    {name barcode uuid : String} {image : UIImage} (shown : app.screen = .edit edit detailed)
    (missing : EditCardTableViewController.isEnteredDataValid name barcode = false) :
    Steps platform app (.saveCard name barcode image uuid) app
  | deleteCard {edit : EditCardTableViewController} {detailed : DetailedViewController}
    {cleaned server : Server} (shown : app.screen = .edit edit detailed)
    (removed : edit.removeOldCard platform app.server = .ok cleaned)
    (deleted : DatabaseService.removeDataFromDb app.defaults cleaned edit.uid = .ok server) :
    Steps platform app .deleteCard
      (reloading { app with server := server } detailed.hasDelegates).popToRoot
  | backToDetail {edit : EditCardTableViewController} {detailed : DetailedViewController}
    (shown : app.screen = .edit edit detailed) :
    Steps platform app .back { app with screen := .detailed detailed }
  | backToRoot
    (shown : (∃ detailed, app.screen = .detailed detailed) ∨
      ∃ hasDelegate, app.screen = .scanner hasDelegate) :
    Steps platform app .back app.popToRoot
  | uploadFailed {task : Nat} {upload : Upload}
    (found : app.uploads.find? (fun upload => upload.task = task) = some upload) :
    Steps platform app (.uploadFinished task .putDataFailed)
      { app with uploads := app.uploads.filter fun other => other.task ≠ task }
  | downloadURLFailed {task : Nat} {upload : Upload} {url : String}
    (found : app.uploads.find? (fun upload => upload.task = task) = some upload)
    (named : platform.referenceForURL url = .ok upload.path) :
    Steps platform app (.uploadFinished task (.downloadURLFailed url))
      { app with
        uploads := app.uploads.filter fun other => other.task ≠ task
        server := app.server.putData ⟨upload.path, upload.data, url⟩ }
  | uploadStored {task : Nat} {upload : Upload} {url : String} {server : Server}
    (found : app.uploads.find? (fun upload => upload.task = task) = some upload)
    (named : platform.referenceForURL url = .ok upload.path)
    (written : DatabaseService.updateDataInDb app.defaults
      (app.server.putData ⟨upload.path, upload.data, url⟩)
      { upload.card with absoluteURL := some url } = .ok server) :
    Steps platform app (.uploadFinished task (.stored url))
      { app with
        uploads := app.uploads.filter fun other => other.task ≠ task
        server := server }
  | logoutPressed (shown : app.screen ≠ .entry) :
    Steps platform app .logoutPressed
      { app with defaults := app.defaults.saveLoggedState false, screen := .entry }
  | signedIn {user : User} (shown : app.screen = .entry) :
    Steps platform app (.signedIn user) <|
      withLoad
        { app with
          defaults := (app.defaults.saveLoggedState true).save user
          home := .new app.nextHome
          nextHome := app.nextHome + 1
          screen := .home } true
  | launch :
    Steps platform app .launch { app with uploads := [], loads := [], screen := .entry }

/-- A step does one of the listed things. -/
theorem steps_of_step {action : Action} (done : app.step platform action = .ok after) :
    Steps platform app action after := by
  -- Each action is inverted by the lemma about its handler.
  cases action with
  | homeViewDidLoad =>
    obtain rfl := startLoad_ok done
    exact .homeViewDidLoad
  | snapshotRead task =>
    obtain ⟨asked, done⟩ := offered_ok done
    cases done
    exact .snapshotRead asked
  | loadDelivered task =>
    obtain ⟨load, cards, found, answered, rfl⟩ := loadDelivered_ok done
    exact .loadDelivered found answered
  | searchChanged isActive text =>
    obtain ⟨shown, done⟩ := offered_ok done
    cases done
    exact .searchChanged shown
  | addCardSegue =>
    obtain ⟨shown, done⟩ := offered_ok done
    cases done
    exact .addCardSegue shown
  | cellSegue row =>
    obtain ⟨opened, shown, inside, filled, rfl⟩ := cellSegue_ok done
    exact .cellSegue shown inside filled
  | scanned name barcode autoId =>
    obtain ⟨hasDelegate, shown, reported⟩ := scanned_ok done
    obtain ⟨server, cardId, fresh, stored, rfl⟩ := saveToDbAndNotify_ok reported
    exact .scanned shown fresh stored
  | addNewCard name barcode autoId =>
    obtain ⟨hasDelegate, shown, ⟨rfl, missing⟩ | ⟨filled, reported⟩⟩ := addNewCard_ok done
    · exact .addNewCardAlert shown missing
    · obtain ⟨server, cardId, fresh, stored, rfl⟩ := saveToDbAndNotify_ok reported
      exact .addNewCard shown filled fresh stored
  | saveNotesClicked text =>
    obtain ⟨detailed, server, shown, written, rfl⟩ := saveNotesClicked_ok done
    exact .saveNotesClicked shown written
  | editSegue =>
    simp only [step] at done
    split at done
    · rename_i detailed shown
      cases done
      exact .editSegue shown
    · cases done
  | saveCard name barcode image uuid =>
    obtain ⟨edit, detailed, shown, ⟨rfl, missing⟩ | ⟨server, filled, fresh, removed, rfl⟩⟩ :=
      saveCard_ok done
    · exact .saveCardAlert shown missing
    · exact .saveCard shown filled fresh removed
  | deleteCard =>
    obtain ⟨edit, detailed, cleaned, server, shown, removed, deleted, rfl⟩ := deleteCard_ok done
    exact .deleteCard shown removed deleted
  | back =>
    rcases back_ok done with ⟨edit, detailed, shown, rfl⟩ | ⟨shown, rfl⟩
    · exact .backToDetail shown
    · exact .backToRoot shown
  | uploadFinished task result =>
    obtain ⟨upload, server, found, rfl, outcome⟩ := uploadFinished_ok done
    rcases outcome with ⟨rfl, rfl⟩ | ⟨url, rfl, named, rfl⟩ | ⟨url, rfl, named, written⟩
    · exact .uploadFailed found
    · exact .downloadURLFailed found named
    · exact .uploadStored found named written
  | logoutPressed =>
    obtain ⟨shown, done⟩ := offered_ok done
    cases done
    exact .logoutPressed shown
  | signedIn user =>
    obtain ⟨shown, done⟩ := offered_ok done
    obtain rfl := startLoad_ok done
    exact .signedIn shown
  | launch =>
    cases done
    exact .launch

/-- The states that follow each other in a run do so by one of the listed steps. -/
theorem steps_of_next {action : Action} (taken : app.next platform action = some after) :
    Steps platform app action after :=
  steps_of_step (next_eq_some.mp taken)

end App

end CardGuru
