import CardGuru.App.Inversion

/-! The one database write that a step issues, as a function of the state before it. -/

namespace CardGuru

/-- The write that stores a new card. -/
def newCardRequest (userRef name barcode : String) (autoId : PushId) : DatabaseWrite :=
  .setValue (DatabaseService.cardsPath userRef ++ [autoId.key])
    [(Key.name, .string name), (Key.barcode, .string barcode)]

/-- The write that stores notes. -/
def notesRequest (userRef uid text : String) : DatabaseWrite :=
  .updateChildValues (DatabaseService.recordPath userRef uid) [(Key.notes, some (.string text))]

/-- The write that deletes a card. -/
def removeRequest (userRef uid : String) : DatabaseWrite :=
  .removeValue (DatabaseService.recordPath userRef uid)

/-- The write that stores an edited card with the address of its picture. -/
def updateRequest (userRef : String) (card : Card) (url : String) : DatabaseWrite :=
  -- The notes are not among the fields, so they stay as they are.
  .updateChildValues (DatabaseService.recordPath userRef card.uid)
    [(Key.name, some (.string card.name)), (Key.barcode, some (.string card.barcode)),
     (Key.absoluteURL, some (.string url))]

namespace Server

/-- What at most one write does to the database and to the record of issued writes. -/
def Performed (before after : Server) : Option DatabaseWrite → Prop
  -- Without a write nothing is issued and nothing changes.
  | none => after.database = before.database ∧ after.writes = before.writes
  | some write =>
    after.database = before.database.apply write ∧ after.writes = before.writes ++ [write]

/-- A performed write is the one that was issued. -/
theorem performed_of_perform {before after : Server} {write : DatabaseWrite}
    (done : before.perform write = .ok after) : before.Performed after (some write) := by
  -- A write that does not raise applies and is recorded.
  obtain rfl := perform_ok done
  exact ⟨rfl, rfl⟩

end Server

namespace App

/-- The write that an action issues while a given user is the current one. -/
def requestFor (app : App) (userRef : String) : Action → Option DatabaseWrite
  | .scanned name barcode autoId =>
    match app.screen with
    | .scanner _ =>
      some (newCardRequest userRef (if name.isEmpty then "Unknown" else name) barcode autoId)
    | _ => none
  | .addNewCard name barcode autoId =>
    match app.screen with
    | .scanner _ =>
      if name.isEmpty || barcode.isEmpty then none
      else some (newCardRequest userRef name barcode autoId)
    | _ => none
  | .saveNotesClicked text =>
    match app.screen with
    | .detailed detailed => some (notesRequest userRef detailed.uid text)
    | _ => none
  | .deleteCard =>
    match app.screen with
    | .edit edit _ => some (removeRequest userRef edit.uid)
    | _ => none
  | .uploadFinished task (.stored url) =>
    (app.uploads.find? fun upload => upload.task = task).map fun upload =>
      updateRequest userRef upload.card url
  -- All other actions only read, or change pictures and screens.
  | _ => none

/-- The write that an action issues for the user that the defaults name at that moment. -/
def request (app : App) (action : Action) : Option DatabaseWrite :=
  (DatabaseService.getCurrentUserRef app.defaults).bind fun userRef =>
    app.requestFor userRef action

variable {platform : Platform} {app after : App}

private theorem performed_none {action : Action} (silent : ∀ userRef, app.requestFor userRef action = none)
    (kept : after.server = app.server) :
    app.server.Performed after.server (app.request action) := by
  -- Whoever the current user is, nothing is issued.
  have nothing : app.request action = none := by
    unfold request
    cases DatabaseService.getCurrentUserRef app.defaults with
    | none => rfl
    | some userRef => exact silent userRef
  rw [nothing, kept]
  exact ⟨rfl, rfl⟩

private theorem performed_onRecord {action : Action} {server result : Server} {uid : String}
    {make : Path → DatabaseWrite}
    (done : DatabaseService.onRecord app.defaults server uid make = .ok result)
    (same : server.database = app.server.database ∧ server.writes = app.server.writes)
    (issued : ∀ userRef, app.requestFor userRef action =
      some (make (DatabaseService.recordPath userRef uid))) :
    app.server.Performed result (app.request action) := by
  -- Changes of stored pictures made before the write do not concern it.
  rcases DatabaseService.onRecord_ok done with ⟨nobody, rfl⟩ | ⟨userRef, current, _, written⟩
  · rw [request, nobody]
    exact same
  · rw [request, current, Option.bind_some, issued]
    obtain ⟨applied, recorded⟩ := Server.performed_of_perform written
    rw [same.1] at applied
    rw [same.2] at recorded
    exact ⟨applied, recorded⟩

private theorem performed_saveCard {action : Action} {server : Server}
    {name barcode cardId : String} {autoId : PushId}
    (stored : DatabaseService.saveCard app.defaults app.server
      [(Key.name, .string name), (Key.barcode, .string barcode)] autoId = .ok (server, cardId))
    (issued : ∀ userRef, app.requestFor userRef action =
      some (newCardRequest userRef name barcode autoId)) :
    app.server.Performed server (app.request action) := by
  -- Without a user neither a request nor a write is made.
  rcases DatabaseService.saveCard_ok stored with ⟨nobody, rfl, _⟩ | ⟨userRef, current, _, written⟩
  · rw [request, nobody]
    exact ⟨rfl, rfl⟩
  · rw [request, current, Option.bind_some, issued]
    exact Server.performed_of_perform written

private theorem removeOldCard_frame {edit : EditCardTableViewController} {server : Server}
    (done : edit.removeOldCard platform app.server = .ok server) :
    server.database = app.server.database ∧ server.writes = app.server.writes := by
  -- At most one stored picture disappears.
  unfold EditCardTableViewController.removeOldCard at done
  split at done
  · cases done
    exact ⟨rfl, rfl⟩
  · obtain ⟨path, _, rfl⟩ := DatabaseService.removeImageFromStorage_ok done
    exact ⟨rfl, rfl⟩

/-- Every step issues exactly the write that its state and action determine. -/
theorem step_request {action : Action} (stepped : Steps platform app action after) :
    app.server.Performed after.server (app.request action) := by
  -- Only new cards, notes, deletions and delivered addresses are written.
  cases stepped with
  | scanned shown fresh stored => exact performed_saveCard stored fun _ => by simp [requestFor, shown]
  | addNewCard shown filled fresh stored =>
    refine performed_saveCard stored fun _ => ?_
    simp only [requestFor, shown, filled, Bool.false_eq_true, if_false]
  | addNewCardAlert shown missing =>
    exact performed_none (fun _ => by simp only [requestFor, shown, missing, if_true]) rfl
  | saveNotesClicked shown written =>
    refine performed_onRecord written ⟨rfl, rfl⟩ fun userRef => ?_
    simp only [requestFor, shown]
    rfl
  | saveCard shown filled fresh removed =>
    rw [request]
    cases DatabaseService.getCurrentUserRef app.defaults with
    | none => exact removeOldCard_frame removed
    | some userRef => exact removeOldCard_frame removed
  | deleteCard shown removed deleted =>
    rw [popToRoot, server_reloading]
    refine performed_onRecord deleted (removeOldCard_frame removed) fun userRef => ?_
    simp only [requestFor, shown]
    rfl
  | downloadURLFailed found named =>
    rw [request]
    cases DatabaseService.getCurrentUserRef app.defaults with
    | none => exact ⟨rfl, rfl⟩
    | some userRef => exact ⟨rfl, rfl⟩
  | uploadStored found named written =>
    refine performed_onRecord written ⟨rfl, rfl⟩ fun userRef => ?_
    simp only [requestFor, found]
    rfl
  | homeViewDidLoad => exact performed_none (fun _ => rfl) (server_withLoad _ _)
  | signedIn shown => exact performed_none (fun _ => rfl) (server_withLoad _ _)
  | _ => exact performed_none (fun _ => rfl) rfl

/-- Every write addresses a place among the cards of the user that is current when it is issued. -/
theorem request_path {action : Action} {write : DatabaseWrite}
    (issued : app.request action = some write) :
    ∃ userRef, DatabaseService.getCurrentUserRef app.defaults = some userRef ∧
      DatabaseService.cardsPath userRef <+: write.path := by
  -- Each of the requests starts from the reference to the cards.
  obtain ⟨userRef, current, requested⟩ := Option.bind_eq_some_iff.mp issued
  refine ⟨userRef, current, ?_⟩
  unfold requestFor at requested
  split at requested
  · split at requested <;> cases requested
    exact List.prefix_append _ _
  · split at requested
    · split at requested <;> cases requested
      exact List.prefix_append _ _
    · cases requested
  · split at requested <;> cases requested
    exact List.prefix_append _ _
  · split at requested <;> cases requested
    exact List.prefix_append _ _
  · obtain ⟨upload, _, rfl⟩ := Option.map_eq_some_iff.mp requested
    exact List.prefix_append _ _
  · cases requested

end App

end CardGuru
