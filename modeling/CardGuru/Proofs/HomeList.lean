import CardGuru.App.Reachable
import CardGuru.App.Scenario
import CardGuru.App.Views

/-! While operations are made one after the other, the home screen lists what the server holds, as
long as new cards get the last keys. -/

namespace CardGuru

namespace App

/-- The key of a new card comes after the uids in the list. -/
def AddsLast (app : App) : Action → Prop
  | .scanned _ _ autoId => ∀ key : Key, key.text ∈ app.home.uids → key < autoId.key
  | .addNewCard _ _ autoId => ∀ key : Key, key.text ∈ app.home.uids → key < autoId.key
  | _ => True

/-- No other listed uid equals that of a card which is edited or gets notes. -/
def ChangesOne (platform : Platform) (app : App) : Action → Prop
  | .saveNotesClicked _ | .saveCard _ _ _ _ => ∀ uid ∈ app.shownUid, platform.TellsApart app.home.uids uid
  -- New cards are appended, and deleted ones are read away.
  | _ => True

/-- The home screen and the server hold the same list of cards. -/
def Agrees (app : App) (userRef : String) : Prop :=
  app.home.views = some (app.server.database.views userRef)

/-- How the list of the home screen relates to that of the server between and during operations. -/
inductive Phase (userRef : String) (app : App) : Prop where
  /-- Between the operations both are the same. -/
  | quiet (uploads : app.uploads = []) (loads : app.loads = []) (agrees : app.Agrees userRef)
  /-- During an upload the home screen is ahead by one edit. -/
  | saving {upload : Upload} (uploads : app.uploads = [upload]) (loads : app.loads = [])
    (listed : upload.card.uid ∈ (app.server.database.views userRef).map Card.View.uid)
    (ahead : app.home.views = some
      ((CardOperation.edit upload.card.uid upload.card.name upload.card.barcode).perform
        (app.server.database.views userRef)))
  /-- During a reload the home screen is about to list what the server holds. -/
  | reloading {load : Load} (uploads : app.uploads = []) (loads : app.loads = [load])
    (concerns : load.home = app.home.id) (path : load.path = DatabaseService.cardsPath userRef)
    (answered : ∀ cards, load.snapshot = some cards →
      cards = Node.cards (app.server.database.get load.path))

/-- What holds while operations are made one after the other. -/
structure Synchronized (userRef : String) (app : App) : Prop where
  current : DatabaseService.getCurrentUserRef app.defaults = some userRef
  loaded : app.home.cards.isSome = true
  inUse : app.home.Allocated
  opened : app.OpenedFromList
  /-- The scanner was opened from a loaded list. -/
  scanning : ∀ hasDelegate, app.screen = .scanner hasDelegate → hasDelegate = true
  phase : Phase userRef app

variable {platform : Platform} {app after final : App} {history : List (App × Action)}
  {userRef : String}

/-- Without a pending completion the home screen and the server agree. -/
theorem Phase.agrees (phase : Phase userRef app) (quiet : app.Quiet) : app.Agrees userRef := by
  -- In the other two phases an upload or a load is pending.
  cases phase with
  | quiet _ _ agrees => exact agrees
  | saving uploads _ _ _ => simp [quiet.1] at uploads
  | reloading _ loads _ _ _ => simp [quiet.2] at loads

/-- Steps that change neither the cards nor the pending work keep the phase. -/
theorem Phase.of_kept (phase : Phase userRef app) (views : after.home.views = app.home.views)
    (id : after.home.id = app.home.id) (database : after.server.database = app.server.database)
    (uploads : after.uploads = app.uploads) (loads : after.loads = app.loads) :
    Phase userRef after := by
  -- Each phase speaks of nothing but these five parts.
  cases phase with
  | quiet noUploads noLoads agrees =>
    refine .quiet (uploads.trans noUploads) (loads.trans noLoads) ?_
    rw [Agrees, views, database]
    exact agrees
  | saving upload noLoads listed ahead =>
    refine .saving (uploads.trans upload) (loads.trans noLoads) ?_ ?_
    · rw [database]
      exact listed
    · rw [views, database]
      exact ahead
  | reloading noUploads load concerns path answered =>
    refine .reloading (uploads.trans noUploads) (loads.trans load) (concerns.trans id.symm) path ?_
    rw [database]
    exact answered

/-- An added card is added on the server and in the list. -/
private theorem agrees_added {server : Server} {name barcode cardId : String} {autoId : PushId}
    (synchronized : Synchronized userRef app) (quiet : app.Quiet)
    (fresh : app.isFreshId autoId = true)
    (stored : DatabaseService.saveCard app.defaults app.server
      [(Key.name, .string name), (Key.barcode, .string barcode)] autoId = .ok (server, cardId))
    (latest : ∀ key : Key, key.text ∈ app.home.uids → key < autoId.key) :
    (app.added true server (Card.make cardId name barcode .shop)).Agrees userRef := by
  have current := synchronized.current
  have before := synchronized.phase.agrees quiet
  rcases DatabaseService.saveCard_ok stored with ⟨nobody, _⟩ | ⟨other, found, rfl, written⟩
  · simp [current] at nobody
  · obtain rfl : userRef = other := Option.some.inj (current.symm.trans found)
    obtain rfl := Server.perform_ok written
    -- The key was not used before, and sorts behind those in the list.
    have absent : (app.server.database.get
        (DatabaseService.cardsPath userRef ++ [autoId.key])).isEmpty = true := by
      simp only [isFreshId, current, Bool.and_eq_true] at fresh
      exact fresh.1
    rw [HomeViewController.uids_eq_of_views before] at latest
    have requested := @Database.views_newCardRequest app.server.database userRef name barcode autoId
      absent latest
    show HomeViewController.views (HomeViewController.viewWillAppear (app.home.userDidEnterCard _)) =
      some (Database.views (app.server.database.apply (newCardRequest userRef name barcode autoId)) userRef)
    rw [HomeViewController.views, HomeViewController.loadedCards_viewWillAppear, ← HomeViewController.views,
      HomeViewController.views_userDidEnterCard synchronized.inUse, before, requested]
    rfl

/-- Added cards keep everything synchronized. -/
private theorem synchronized_added {server : Server} {name barcode cardId : String}
    {autoId : PushId} {hasDelegate : Bool} (synchronized : Synchronized userRef app)
    (shown : app.screen = .scanner hasDelegate) (quiet : app.Quiet)
    (fresh : app.isFreshId autoId = true)
    (stored : DatabaseService.saveCard app.defaults app.server
      [(Key.name, .string name), (Key.barcode, .string barcode)] autoId = .ok (server, cardId))
    (latest : ∀ key : Key, key.text ∈ app.home.uids → key < autoId.key) :
    Synchronized userRef (app.added hasDelegate server (Card.make cardId name barcode .shop)) := by
  -- The scanner was opened from the list, so it reports to it.
  obtain rfl := synchronized.scanning hasDelegate shown
  have agrees := agrees_added synchronized quiet fresh stored latest
  have entered := HomeViewController.allocated_userDidEnterCard synchronized.inUse
    (Card.make cardId name barcode .shop)
  obtain ⟨refs, listed⟩ := Option.isSome_iff_exists.mp synchronized.loaded
  refine ⟨synchronized.current, ?_, ?_, trivial, by simp [added, popToRoot],
    .quiet quiet.1 quiet.2 agrees⟩
  · show (HomeViewController.viewWillAppear (app.home.userDidEnterCard _)).cards.isSome = true
    rw [HomeViewController.cards_viewWillAppear, HomeViewController.userDidEnterCard_loaded listed]
    rfl
  · exact entered.of_kept (HomeViewController.cards_viewWillAppear _)
      (HomeViewController.nextRef_viewWillAppear _)

/-- Steps between the screens keep everything synchronized. -/
private theorem synchronized_moved (synchronized : Synchronized userRef app)
    (defaults : after.defaults = app.defaults) (server : after.server = app.server)
    (cards : after.home.cards = app.home.cards) (heap : after.home.heap = app.home.heap)
    (nextRef : after.home.nextRef = app.home.nextRef) (id : after.home.id = app.home.id)
    (uploads : after.uploads = app.uploads) (loads : after.loads = app.loads)
    (opened : after.OpenedFromList)
    (scanning : ∀ hasDelegate, after.screen = .scanner hasDelegate → hasDelegate = true) :
    Synchronized userRef after := by
  -- The cards and the objects they refer to are the same.
  have views := HomeViewController.views_of_kept cards heap
  exact ⟨defaults ▸ synchronized.current, cards ▸ synchronized.loaded,
    synchronized.inUse.of_kept cards nextRef, opened, scanning,
    synchronized.phase.of_kept views id (congrArg Server.database server) uploads loads⟩

/-- A load that is answered or delivered keeps everything synchronized. -/
private theorem synchronized_snapshotRead {task : Nat} (synchronized : Synchronized userRef app)
    (asked : ∃ load ∈ app.loads, load.task = task ∧ load.snapshot = none) :
    Synchronized userRef
      { app with
        loads := app.loads.map fun load =>
          if load.task = task then
            { load with snapshot := some (Node.cards (app.server.database.get load.path)) }
          else load } := by
  refine ⟨synchronized.current, synchronized.loaded, synchronized.inUse, synchronized.opened,
    synchronized.scanning, ?_⟩
  obtain ⟨load, member, rfl, unanswered⟩ := asked
  -- Only in the last phase a load is pending, and this is the one.
  cases synchronized.phase with
  | quiet _ loads _ => simp [loads] at member
  | saving _ loads _ _ => simp [loads] at member
  | reloading uploads loads concerns path answered =>
    rename_i pending
    obtain rfl : load = pending := by simpa [loads] using member
    let read : Load :=
      { load with snapshot := some (Node.cards (app.server.database.get load.path)) }
    have pending : (app.loads.map fun other =>
        if other.task = load.task then
          { other with snapshot := some (Node.cards (app.server.database.get other.path)) }
        else other) = [read] := by
      simp only [loads, List.map_cons, List.map_nil, if_true, read]
    exact .reloading uploads pending concerns path fun cards same => (Option.some.inj same).symm

private theorem synchronized_loadDelivered {task : Nat} {load : Load} {cards : List Card}
    (synchronized : Synchronized userRef app)
    (found : app.loads.find? (fun load => load.task = task) = some load)
    (answered : load.snapshot = some cards) :
    Synchronized userRef
      { app with
        loads := app.loads.filter fun load => load.task ≠ task
        home :=
          if load.home = app.home.id then
            if load.initial then app.home.viewDidLoadCompletion cards
            else app.home.userDidRemoveDataCompletion cards
          else app.home } := by
  have member := List.mem_of_find?_eq_some found
  have named : load.task = task := by simpa using List.find?_some found
  -- The delivered load ends the last phase.
  cases synchronized.phase with
  | quiet _ loads _ => simp [loads] at member
  | saving _ loads _ _ => simp [loads] at member
  | reloading uploads loads concerns path same =>
    rename_i pending
    obtain rfl : load = pending := by simpa [loads] using member
    have delivered := app.home.loadedCards_loadCompletion load.initial cards
    have inUse := app.home.allocated_loadCompletion load.initial cards
    obtain ⟨_, _, _, _, shape⟩ := app.home.loadCompletion_frame load.initial cards
    simp only [concerns, if_true]
    refine ⟨synchronized.current, ?_, inUse, synchronized.opened, synchronized.scanning,
      .quiet uploads ?_ ?_⟩
    · show (app.home.loadCompletion load.initial cards).cards.isSome = true
      rw [shape]
      rfl
    · simp [loads, named]
    · -- The list is what the server held when it was read, and still holds.
      show (app.home.loadCompletion load.initial cards).views = some (app.server.database.views userRef)
      rw [HomeViewController.views, delivered, same cards answered, path]
      rfl

/-- Saved notes keep everything synchronized. -/
private theorem synchronized_saveNotesClicked {detailed : DetailedViewController} {server : Server}
    {text : String} (synchronized : Synchronized userRef app)
    (quiet : app.Quiet) (listed : detailed.uid ∈ app.home.uids)
    (apart : platform.TellsApart app.home.uids detailed.uid)
    (shown : app.screen = .detailed detailed)
    (performed : app.server.Performed server (app.request (.saveNotesClicked text))) :
    Synchronized userRef
      { app with
        server := server
        home :=
          if detailed.hasDelegates then app.home.userDidAddNotes platform (detailed.notedCard text)
          else app.home
        screen := .detailed { detailed with notesText := text } } := by
  have agrees := synchronized.phase.agrees quiet
  -- The screen was opened from the list, so its delegates are set.
  have reporting : detailed.hasDelegates = true := by
    simpa [OpenedFromList, shown] using synchronized.opened
  have requested : app.request (.saveNotesClicked text) =
      some (notesRequest userRef detailed.uid text) := by
    simp [request, requestFor, shown, synchronized.current]
  rw [requested] at performed
  rw [HomeViewController.uids_eq_of_views agrees] at listed
  simp only [reporting, if_true]
  refine ⟨synchronized.current, ?_, synchronized.inUse.of_kept (by simp) (by simp),
    by simp [OpenedFromList], by simp, .quiet quiet.1 quiet.2 ?_⟩
  · simpa using synchronized.loaded
  · -- Both lists get the same notes.
    show (app.home.userDidAddNotes platform (detailed.notedCard text)).views =
      some (server.database.views userRef)
    rw [HomeViewController.views_userDidAddNotes apart rfl, agrees, performed.1,
      Database.views_notesRequest listed]
    rfl

/-- A save puts the list of the home screen ahead by one edit. -/
private theorem synchronized_saveCard {edit : EditCardTableViewController}
    {detailed : DetailedViewController} {server : Server} {name barcode uuid : String}
    {image : UIImage} (synchronized : Synchronized userRef app)
    (quiet : app.Quiet) (listed : edit.uid ∈ app.home.uids)
    (apart : platform.TellsApart app.home.uids edit.uid) (shown : app.screen = .edit edit detailed)
    (unwritten : server.database = app.server.database) :
    Synchronized userRef
      (app.saved platform detailed server (Card.make edit.uid name barcode image)
        (DatabaseService.saveCardImage app.defaults image uuid)) := by
  have agrees := synchronized.phase.agrees quiet
  have opened := synchronized.opened
  simp only [OpenedFromList, shown] at opened
  -- The detail screen passes the edited card on to the list.
  have reported : detailed.forwardedCard (Card.make edit.uid name barcode image) =
      Card.make edit.uid name barcode image := by
    rw [opened.2]
    rfl
  have home : (app.saved platform detailed server (Card.make edit.uid name barcode image)
      (DatabaseService.saveCardImage app.defaults image uuid)).home =
        app.home.userDidUpdateData platform (Card.make edit.uid name barcode image) := by
    simp [saved, opened.1, reported]
  -- The picture is the only pending upload.
  let upload : Upload :=
    { task := app.nextTask, path := standardizedPath userRef ++ [uuid ++ ".png"]
      data := DatabaseService.imageData image, card := Card.make edit.uid name barcode image }
  have uploads : (app.saved platform detailed server (Card.make edit.uid name barcode image)
      (DatabaseService.saveCardImage app.defaults image uuid)).uploads = [upload] := by
    simp [saved, quiet.1, DatabaseService.saveCardImage, synchronized.current, upload]
  rw [HomeViewController.uids_eq_of_views agrees] at listed
  refine ⟨synchronized.current, ?_, ?_, opened.1, by simp [saved],
    .saving uploads quiet.2 ?_ ?_⟩
  · rw [home, HomeViewController.cards_userDidUpdateData]
    exact synchronized.loaded
  · rw [home]
    exact synchronized.inUse.of_kept (by simp) (by simp)
  · show upload.card.uid ∈ (server.database.views userRef).map Card.View.uid
    rw [unwritten]
    exact listed
  · show _ = some (CardOperation.perform _ (server.database.views userRef))
    rw [home, HomeViewController.views_userDidUpdateData apart, agrees, unwritten]
    rfl

/-- A deletion makes the home screen about to list what the server holds. -/
private theorem synchronized_deleteCard {detailed : DetailedViewController} {server : Server}
    (synchronized : Synchronized userRef app) (quiet : app.Quiet)
    (reporting : detailed.hasDelegates = true) :
    Synchronized userRef
      (reloading { app with server := server } detailed.hasDelegates).popToRoot := by
  have current := synchronized.current
  rw [reporting]
  refine ⟨?_, ?_, ?_, trivial, by simp [popToRoot], ?_⟩
  · simpa [popToRoot] using current
  · simpa [popToRoot] using synchronized.loaded
  · simp only [popToRoot, home_reloading]
    exact synchronized.inUse.of_kept (by simp) (by simp)
  · -- The list is read again, as the only pending load.
    let load : Load :=
      { task := app.nextTask, home := app.home.id, initial := false
        path := DatabaseService.cardsPath userRef, snapshot := none }
    have loads : (reloading { app with server := server } true).popToRoot.loads = [load] := by
      simp [popToRoot, reloading, withLoad, current, quiet.2, load]
    refine .reloading ?_ loads ?_ rfl fun cards same => by cases same
    · simpa [popToRoot] using quiet.1
    · simp [popToRoot, load]

/-- A delivered address brings the server to where the home screen is. -/
private theorem synchronized_uploadStored {task : Nat} {upload : Upload} {url : String}
    {server : Server} (synchronized : Synchronized userRef app)
    (found : app.uploads.find? (fun upload => upload.task = task) = some upload)
    (performed : app.server.Performed server (app.request (.uploadFinished task (.stored url)))) :
    Synchronized userRef
      { app with
        uploads := app.uploads.filter fun other => other.task ≠ task
        server := server } := by
  refine ⟨synchronized.current, synchronized.loaded, synchronized.inUse, synchronized.opened,
    synchronized.scanning, ?_⟩
  have member := List.mem_of_find?_eq_some found
  have named : upload.task = task := by simpa using List.find?_some found
  -- The delivered upload ends the phase of saving.
  cases synchronized.phase with
  | quiet uploads _ _ => simp [uploads] at member
  | reloading uploads _ _ _ _ => simp [uploads] at member
  | saving uploads loads listed ahead =>
    rename_i pending
    obtain rfl : upload = pending := by simpa [uploads] using member
    have requested : app.request (.uploadFinished task (.stored url)) =
        some (updateRequest userRef upload.card url) := by
      simp [request, requestFor, synchronized.current, found]
    rw [requested] at performed
    refine .quiet (by simp [uploads, named]) loads ?_
    show app.home.views = some (server.database.views userRef)
    rw [performed.1, Database.views_updateRequest listed]
    exact ahead

/-- Every step of the described kind keeps everything synchronized. -/
private theorem synchronized_step {action : Action} (synchronized : Synchronized userRef app)
    (sequential : app.sequential action = true) (last : app.AddsLast action)
    (apart : app.ChangesOne platform action) (stepped : Steps platform app action after) :
    Synchronized userRef after := by
  have performed := step_request stepped
  cases stepped with
  | snapshotRead asked => exact synchronized_snapshotRead synchronized asked
  | loadDelivered found answered => exact synchronized_loadDelivered synchronized found answered
  | searchChanged shown =>
    exact synchronized_moved synchronized rfl rfl (by simp) (by simp) (by simp) (by simp) rfl rfl
      synchronized.opened synchronized.scanning
  | addCardSegue shown =>
    refine synchronized_moved synchronized rfl rfl rfl rfl rfl rfl rfl rfl trivial ?_
    intro hasDelegate opened
    obtain rfl : app.home.cards.isSome = hasDelegate := by simpa using opened
    exact synchronized.loaded
  | cellSegue shown inside filled =>
    obtain ⟨refs, listed⟩ := Option.isSome_iff_exists.mp synchronized.loaded
    have reporting := HomeViewController.hasDelegates_of_detailedCard
      (HomeViewController.rowsLoaded_of_loaded listed) inside filled
    exact synchronized_moved synchronized rfl rfl rfl rfl rfl rfl rfl rfl reporting (by simp)
  | scanned shown fresh stored =>
    exact synchronized_added synchronized shown (of_decide_eq_true sequential) fresh stored last
  | addNewCard shown filled fresh stored =>
    exact synchronized_added synchronized shown (of_decide_eq_true sequential) fresh stored last
  | addNewCardAlert shown missing => exact synchronized
  | saveNotesClicked shown written =>
    obtain ⟨quiet, listed⟩ := listed_of_operates sequential
    exact synchronized_saveNotesClicked synchronized quiet (listed _ (by simp [shownUid, shown]))
      (apart _ (by simp [shownUid, shown])) shown performed
  | editSegue shown =>
    refine synchronized_moved synchronized rfl rfl rfl rfl rfl rfl rfl rfl ⟨?_, rfl⟩ (by simp)
    simpa [OpenedFromList, shown] using synchronized.opened
  | @saveCard edit detailed server name barcode uuid image shown filled fresh removed =>
    have silent : app.request (.saveCard name barcode image uuid) = none := by
      simp [request, requestFor, synchronized.current]
    rw [silent] at performed
    obtain ⟨quiet, listed⟩ := listed_of_operates sequential
    exact synchronized_saveCard synchronized quiet (listed edit.uid (by simp [shownUid, shown]))
      (apart edit.uid (by simp [shownUid, shown])) shown performed.1
  | saveCardAlert shown missing => exact synchronized
  | deleteCard shown removed deleted =>
    have opened := synchronized.opened
    simp only [OpenedFromList, shown] at opened
    exact synchronized_deleteCard synchronized (listed_of_operates sequential).1 opened.1
  | backToDetail shown =>
    refine synchronized_moved synchronized rfl rfl rfl rfl rfl rfl rfl rfl ?_ (by simp)
    have reporting := synchronized.opened
    simp only [OpenedFromList, shown] at reporting
    exact reporting.1
  | backToRoot shown =>
    exact synchronized_moved synchronized rfl rfl (by simp [popToRoot]) (by simp [popToRoot])
      (by simp [popToRoot]) (by simp [popToRoot]) rfl rfl trivial (by simp [popToRoot])
  | uploadStored found named written => exact synchronized_uploadStored synchronized found performed
  | homeViewDidLoad => cases sequential
  | signedIn shown => cases sequential
  | logoutPressed shown => cases sequential
  | launch => cases sequential
  | uploadFailed found => cases sequential
  | downloadURLFailed found named => cases sequential

/-- A process that has completed its first load lists what the server holds. -/
private theorem synchronized_of_firstLoad {server : Server} {defaults : UserDefaults} {loaded : App}
    (current : DatabaseService.getCurrentUserRef defaults = some userRef)
    (loading : Run.exec (App.next platform) (App.launched server defaults) firstLoad = some loaded) :
    Synchronized userRef loaded := by
  obtain rfl := loaded_of_firstLoad current loading
  let cards := Node.cards (server.database.get (DatabaseService.cardsPath userRef))
  have listed := (HomeViewController.new 1).loadedCards_loadCompletion true cards
  have inUse := (HomeViewController.new 1).allocated_loadCompletion true cards
  obtain ⟨_, _, _, _, shape⟩ := (HomeViewController.new 1).loadCompletion_frame true cards
  refine ⟨current, ?_, inUse, trivial, by simp, .quiet rfl rfl ?_⟩
  · show ((HomeViewController.new 1).loadCompletion true cards).cards.isSome = true
    rw [shape]
    rfl
  · show ((HomeViewController.new 1).loadCompletion true cards).views =
      some (server.database.views userRef)
    rw [HomeViewController.views, listed]
    rfl

/-- Between the operations of a run that follows the first load, the home screen lists what the
server holds, in the same order. -/
theorem home_lists_server {server : Server} {defaults : UserDefaults} {loaded : App}
    (current : DatabaseService.getCurrentUserRef defaults = some userRef)
    (loading : Run.exec (App.next platform) (App.launched server defaults)
      firstLoad = some loaded)
    (run : Run (App.next platform) loaded history final)
    (sequential : Run.Within (fun app action => app.sequential action = true) history)
    (last : Run.Within AddsLast history) (apart : Run.Within (ChangesOne platform) history) :
    ∀ state ∈ Run.states history final, state.Quiet → state.Agrees userRef := by
  have kept : ∀ {state after : App} {action : Action}, Synchronized userRef state →
      state.sequential action = true ∧ state.AddsLast action ∧ state.ChangesOne platform action →
      state.next platform action = some after → Synchronized userRef after :=
    fun synchronized conditions taken =>
      synchronized_step synchronized conditions.1 conditions.2.1 conditions.2.2 (steps_of_next taken)
  have both : Run.Within (fun app action => app.sequential action = true ∧ app.AddsLast action ∧
      app.ChangesOne platform action) history :=
    fun entry member => ⟨sequential entry member, last entry member, apart entry member⟩
  intro state member quiet
  have synchronized := run.invariant_states kept (synchronized_of_firstLoad current loading) both
  exact (synchronized state member).phase.agrees quiet

/-- A server that holds one card of the first user, under a given key. -/
def Scenario.holding (key : Key) : Server :=
  { Scenario.emptyServer with
    database := Scenario.emptyDatabase.apply
      (.setValue (DatabaseService.cardsPath "anna@mail_com" ++ [key])
        [(Key.name, .string "Aldi"), (Key.barcode, .string "456")]) }

/-- A process that has loaded the one card that the server holds. -/
def Scenario.oneLoaded (key : Key) : Option App :=
  Scenario.reached (App.launched (Scenario.holding key) Scenario.annaSignedIn)
    firstLoad

/-- A card added after an older one is listed last by both. -/
theorem home_lists_server_addition :
    ∃ loaded final, Scenario.oneLoaded Scenario.firstId.key = some loaded ∧
      Run (App.next Platform.ascii) loaded
        (Scenario.history loaded (Scenario.addition Scenario.secondId)) final ∧
      (final.Quiet → final.Agrees "anna@mail_com") := by
  have possible : (Scenario.oneLoaded Scenario.firstId.key).any (fun loaded =>
      (Scenario.reached loaded (Scenario.addition Scenario.secondId)).isSome &&
        (Scenario.history loaded (Scenario.addition Scenario.secondId)).all fun entry =>
          (entry.1.sequential entry.2 = true ∧ entry.1.home.uids = [Scenario.firstId.text]) ∧
            (entry.2 = .addCardSegue ∨ entry.2 = .scanned "Lidl" "123" Scenario.secondId)) =
        true := by
    decide +kernel
  obtain ⟨loaded, loading, facts⟩ := (Option.any_eq_true _ _).mp possible
  simp only [Bool.and_eq_true, List.all_eq_true, decide_eq_true_eq] at facts
  obtain ⟨final, ends⟩ := Option.isSome_iff_exists.mp facts.1
  have run := Scenario.run_of_ends ends
  have began : Run.exec (App.next Platform.ascii)
      (App.launched (Scenario.holding Scenario.firstId.key) Scenario.annaSignedIn)
      firstLoad = some loaded := loading
  have current : DatabaseService.getCurrentUserRef Scenario.annaSignedIn =
      some "anna@mail_com" := by decide
  refine ⟨loaded, final, loading, run, ?_⟩
  refine home_lists_server current began run (fun entry member => (facts.2 entry member).1.1) ?_ ?_
    final (by simp [Run.states])
  · -- The second generated key comes after the first one.
    rintro ⟨state, action⟩ member
    obtain ⟨⟨_, listed⟩, rfl | rfl⟩ := facts.2 _ member
    · trivial
    · intro key inside
      rw [listed] at inside
      obtain rfl : key = Scenario.firstId.key := Key.ext_text (List.mem_singleton.mp inside)
      exact Key.lt_of_compareKey (by decide +kernel)
  · -- Nothing is edited.
    rintro ⟨state, action⟩ member
    obtain ⟨_, rfl | rfl⟩ := facts.2 _ member
    · trivial
    · trivial

/-- A card added to a list with a larger key is listed last by the home screen only. -/
theorem addition_before_larger_key :
    ¬ ∀ (server : Server) (defaults : UserDefaults) (userRef : String) (loaded final : App)
        (history : List (App × Action)),
        DatabaseService.getCurrentUserRef defaults = some userRef →
        Run.exec (App.next Platform.ascii) (App.launched server defaults)
          firstLoad = some loaded →
        Run (App.next Platform.ascii) loaded history final →
        Run.Within (fun app action => app.sequential action = true) history →
        ∀ state ∈ Run.states history final, state.Quiet → state.Agrees userRef := by
  intro always
  let key : Key := ⟨"zzz", by decide⟩
  have possible : (Scenario.oneLoaded key).any (fun loaded =>
      (Scenario.reached loaded (Scenario.addition Scenario.firstId)).any (fun final =>
        (final.uploads = [] ∧ final.loads = []) ∧
          final.home.views ≠ some (final.server.database.views "anna@mail_com")) &&
        (Scenario.history loaded (Scenario.addition Scenario.firstId)).all fun entry =>
          entry.1.sequential entry.2) = true := by
    decide +kernel
  obtain ⟨loaded, loading, facts⟩ := (Option.any_eq_true _ _).mp possible
  simp only [Bool.and_eq_true, List.all_eq_true, Option.any_eq_true, decide_eq_true_eq] at facts
  obtain ⟨⟨final, ends, quiet, differ⟩, steps⟩ := facts
  exact differ (always _ Scenario.annaSignedIn "anna@mail_com" loaded final _ rfl loading
    (Scenario.run_of_ends ends) steps final (by simp [Run.states]) quiet)

/-- A letter with its combining accent is composed to one character. -/
def Scenario.composed : List Char → List Char
  | 'e' :: '\u0301' :: rest => 'é' :: composed rest
  | c :: rest => c :: composed rest
  | [] => []

/-- A platform on which the two spellings of an accented letter are equal. -/
def Scenario.composing : Platform :=
  { Platform.ascii with
    equals := fun first second => Scenario.composed first.toList = Scenario.composed second.toList
    equals_self := fun _ => decide_eq_true rfl }

/-- A server that holds two cards, under the two spellings of one letter. -/
def Scenario.holdingBoth : Server :=
  { Scenario.holding Key.composed with
    database := (Scenario.holding Key.composed).database.apply
      (.setValue (DatabaseService.cardsPath "anna@mail_com" ++ [Key.decomposed])
        [(Key.name, .string "Rewe"), (Key.barcode, .string "789")]) }

/-- The first card of the list is edited, and its new picture is stored. -/
def Scenario.editStored : List Action :=
  [.cellSegue 0, .editSegue, .saveCard "Lidl" "123" (.photo 1) "U1",
    .uploadFinished 1 (.stored (Scenario.urlOf "U1"))]

/-- An edit of a card whose uid equals another one changes both in the list, and one on the server. -/
theorem edit_reaches_equal_uid :
    ¬ ∀ (server : Server) (defaults : UserDefaults) (userRef : String) (loaded final : App)
        (history : List (App × Action)),
        DatabaseService.getCurrentUserRef defaults = some userRef →
        Run.exec (App.next Scenario.composing) (App.launched server defaults)
          firstLoad = some loaded →
        Run (App.next Scenario.composing) loaded history final →
        Run.Within (fun app action => app.sequential action = true) history →
        Run.Within AddsLast history →
        ∀ state ∈ Run.states history final, state.Quiet → state.Agrees userRef := by
  intro always
  have possible : (Run.exec (App.next Scenario.composing)
      (App.launched Scenario.holdingBoth Scenario.annaSignedIn) firstLoad).any (fun loaded =>
        (Run.exec (App.next Scenario.composing) loaded Scenario.editStored).any (fun final =>
          (final.uploads = [] ∧ final.loads = []) ∧
            final.home.views ≠ some (final.server.database.views "anna@mail_com")) &&
        (Run.trace (App.next Scenario.composing) loaded Scenario.editStored).all fun entry =>
          entry.1.sequential entry.2 = true ∧ entry.2 ∈ Scenario.editStored) = true := by
    decide +kernel
  obtain ⟨loaded, loading, facts⟩ := (Option.any_eq_true _ _).mp possible
  simp only [Bool.and_eq_true, List.all_eq_true, Option.any_eq_true, decide_eq_true_eq] at facts
  obtain ⟨⟨final, ends, quiet, differ⟩, steps⟩ := facts
  refine differ (always _ Scenario.annaSignedIn "anna@mail_com" loaded final _ rfl loading
    (Run.of_exec ends) (fun entry member => (steps entry member).1) ?_ final (by simp [Run.states])
    quiet)
  -- No card is added.
  rintro ⟨state, action⟩ member
  have listed := (steps _ member).2
  simp only [Scenario.editStored, List.mem_cons, List.not_mem_nil, or_false] at listed
  rcases listed with rfl | rfl | rfl | rfl <;> trivial

end App

end CardGuru
