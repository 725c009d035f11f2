import CardGuru.App.Objects
import CardGuru.App.Scenario

/-! Every card added with the scanner is listed exactly once, unless nobody reports it or a load
that was answered too early replaces the list. -/

namespace CardGuru

/-- The record of a uid is present or was addressed by a write. -/
def Server.Knows (server : Server) (userRef uid : String) : Prop :=
  ∃ key : Key, uid = key.text ∧
    ((server.database.get (DatabaseService.cardsPath userRef ++ [key])).isEmpty = false ∨
      ∃ write ∈ server.writes, write.path = DatabaseService.cardsPath userRef ++ [key])

/-- The cards that a load of a user would deliver. -/
def Database.cards (database : Database) (userRef : String) : List Card :=
  Node.cards (database.get (DatabaseService.cardsPath userRef))

/-- Different records of a user are independent. -/
private theorem not_prefix_of_ne {folder : Path} {key other : Key} (different : key ≠ other) :
    ¬ folder ++ [key] <+: folder ++ [other] := by
  rw [List.prefix_append_right_inj]
  -- Both paths have the same length.
  intro continued
  have same : [key] = [other] := continued.eq_of_length rfl
  exact different (List.cons.inj same).1

/-- A uid that was known stays known when a record is written. -/
theorem Server.Knows.of_performed {before after : Server} {write : DatabaseWrite} {key : Key}
    {userRef uid : String} (known : before.Knows userRef uid)
    (performed : before.Performed after (some write))
    (addressed : write.path = DatabaseService.cardsPath userRef ++ [key]) :
    after.Knows userRef uid := by
  obtain ⟨own, rfl, present | ⟨earlier, member, path⟩⟩ := known
  · by_cases same : own = key
    · -- The write itself makes the uid known.
      subst same
      exact ⟨own, rfl, .inr ⟨write, by simp [performed.2], addressed⟩⟩
    · refine ⟨own, rfl, .inl ?_⟩
      rw [performed.1, Database.get_apply_disjoint]
      · exact present
      · rw [addressed]
        exact not_prefix_of_ne (Ne.symm same)
      · rw [addressed]
        exact not_prefix_of_ne same
  · exact ⟨own, rfl, .inr ⟨earlier, by simp [performed.2, member], path⟩⟩

/-- A key that is generated for a new card was not known before. -/
theorem App.not_knows_of_isFreshId {app : App} {autoId : PushId} {userRef : String}
    (current : DatabaseService.getCurrentUserRef app.defaults = some userRef)
    (fresh : app.isFreshId autoId = true) : ¬ app.server.Knows userRef autoId.text := by
  simp only [App.isFreshId, current, Bool.and_eq_true, List.all_eq_true, decide_eq_true_eq] at fresh
  -- A fresh key has neither a record nor a write that addressed one.
  rintro ⟨key, text, present | ⟨write, member, path⟩⟩
  · obtain rfl : autoId.key = key := Key.ext_text text
    rw [fresh.1] at present
    exact Bool.noConfusion present
  · obtain rfl : autoId.key = key := Key.ext_text text
    exact fresh.2 write member path

/-- A card that a load delivers is known. -/
theorem Server.knows_of_mem_cards {server : Server} {userRef : String} {card : Card}
    (listed : card ∈ server.database.cards userRef) : server.Knows userRef card.uid := by
  have canonical := server.database.canonical_get (DatabaseService.cardsPath userRef)
  obtain ⟨key, decoded⟩ := (Node.mem_cards_iff canonical).mp listed
  -- A record that decodes is not empty.
  refine ⟨key, Card.uid_of_ofSnapshot decoded, .inl ?_⟩
  rw [Database.get_concat]
  exact Node.isEmpty_of_ofSnapshot decoded

namespace Database

variable {database : Database} {write : DatabaseWrite} {userRef : String} {key other : Key}

/-- A delivered card stays delivered when another record is written. -/
theorem mem_uids_apply_of_ne (addressed : write.path = DatabaseService.cardsPath userRef ++ [other])
    (different : key ≠ other) (listed : key.text ∈ (database.cards userRef).map Card.uid) :
    key.text ∈ ((database.apply write).cards userRef).map Card.uid := by
  have before := database.canonical_get (DatabaseService.cardsPath userRef)
  have after := (database.apply write).canonical_get (DatabaseService.cardsPath userRef)
  -- A listed record is one that decodes, and the write leaves this one alone.
  rw [cards, Node.text_mem_uids_iff before] at listed
  rw [cards, Node.text_mem_uids_iff after, get_cardsPath_apply addressed,
    KeyTree.child_setChild_ne _ different]
  exact listed

/-- A stored new card is delivered. -/
theorem mem_uids_apply_newCardRequest {name barcode : String} {autoId : PushId} :
    autoId.text ∈
      ((database.apply (newCardRequest userRef name barcode autoId)).cards userRef).map Card.uid := by
  have canonical := (database.apply (newCardRequest userRef name barcode autoId)).canonical_get
    (DatabaseService.cardsPath userRef)
  -- The record of a new card decodes.
  have listed := @Node.text_mem_uids_iff _ autoId.key canonical
  rw [get_cardsPath_apply rfl, KeyTree.child_setChild_self] at listed
  rw [cards, get_cardsPath_apply rfl]
  exact listed.mpr (congrArg Option.isSome (Node.ofSnapshot_newCard name barcode))

end Database

namespace App

/-- The uid under which an action of the scanner saves a card. -/
def savedUid : Action → Option String
  | .scanned _ _ autoId => some autoId.text
  | .addNewCard name barcode autoId =>
    if name.isEmpty || barcode.isEmpty then none else some autoId.text
  | _ => none

/-- The uid of the card that an action deletes. -/
def deletedUid (app : App) : Action → Option String
  | .deleteCard =>
    match app.screen with
    | .edit edit _ => some edit.uid
    | _ => none
  | _ => none

/-- The uids of the cards that were saved in a history. -/
def savedUids (history : List (App × Action)) : List String :=
  history.filterMap fun entry => savedUid entry.2

/-- The uids of the cards that were deleted in a history. -/
def deletedUids (history : List (App × Action)) : List String :=
  history.filterMap fun entry => entry.1.deletedUid entry.2

/-- Scanning, entering and deleting cards, answers of the database, and moves between screens. -/
def addsOrDeletes : Action → Bool
  | .snapshotRead _ | .loadDelivered _ | .searchChanged _ _ | .addCardSegue | .scanned _ _ _
  | .addNewCard _ _ _ | .cellSegue _ | .editSegue | .deleteCard | .back => true
  | _ => false

/-- A card is saved while the scanner has its delegate or a load is pending, and the last pending
load is delivered with all cards that the database has by then. -/
def AddsReported (app : App) : Action → Prop
  | .scanned _ _ _ => app.screen ≠ .scanner false ∨ app.loads ≠ []
  | .addNewCard name barcode _ =>
    (name.isEmpty || barcode.isEmpty) = true ∨ app.screen ≠ .scanner false ∨ app.loads ≠ []
  | .loadDelivered task =>
    (app.loads.filter fun load => load.task ≠ task) = [] →
      ∀ load ∈ app.loads, ∀ cards, load.snapshot = some cards →
        ∀ card ∈ Node.cards (app.server.database.get load.path), card.uid ∈ cards.map Card.uid
  | _ => True

/-- What holds while cards are added and deleted. -/
structure Adding (userRef : String) (history : List (App × Action)) (app : App) : Prop where
  current : DatabaseService.getCurrentUserRef app.defaults = some userRef
  well : app.WellOpened
  /-- A scanner with a delegate was opened from a loaded list. -/
  scanning : app.screen = .scanner true → app.home.cards.isSome = true
  objects : app.home.Objects fun card => app.server.Knows userRef card.uid
  /-- The detail screen shows a card under a key. -/
  shown : ∀ detailed, (app.screen = .detailed detailed ∨ ∃ edit, app.screen = .edit edit detailed) →
    ∃ key : Key, detailed.uid = key.text
  /-- Loads are for this home screen, and what they have read was in the database. -/
  loads : ∀ load ∈ app.loads, load.home = app.home.id ∧
    load.path = DatabaseService.cardsPath userRef ∧ ∀ cards, load.snapshot = some cards →
      (cards.map Card.uid).Nodup ∧ ∀ card ∈ cards, app.server.Knows userRef card.uid
  nodup : app.home.uids.Nodup
  /-- The database has every saved card that was not deleted. -/
  stored : ∀ uid ∈ savedUids history, uid ∉ deletedUids history →
    uid ∈ (app.server.database.cards userRef).map Card.uid
  /-- Without a pending load the list has it, too. -/
  present : app.loads = [] → ∀ uid ∈ savedUids history, uid ∉ deletedUids history →
    uid ∈ app.home.uids

variable {platform : Platform} {app after final : App} {history : List (App × Action)}
  {userRef : String}

@[simp] theorem savedUids_snoc {action : Action} :
    savedUids (history ++ [(app, action)]) = savedUids history ++ (savedUid action).toList := by
  cases saved : savedUid action <;> simp [savedUids, saved]

@[simp] theorem deletedUids_snoc {action : Action} :
    deletedUids (history ++ [(app, action)]) =
      deletedUids history ++ (app.deletedUid action).toList := by
  cases deleted : app.deletedUid action <;> simp [deletedUids, deleted]

/-- Moves between the screens keep what holds. -/
private theorem adding_moved {action : Action} (adding : Adding userRef history app)
    (saving : savedUid action = none) (deleting : app.deletedUid action = none)
    (defaults : after.defaults = app.defaults) (server : after.server = app.server)
    (loads : after.loads = app.loads) (id : after.home.id = app.home.id)
    (cards : after.home.cards = app.home.cards) (heap : after.home.heap = app.home.heap)
    (objects : after.home.Objects fun card => app.server.Knows userRef card.uid)
    (well : after.WellOpened)
    (scanning : after.screen = .scanner true → app.home.cards.isSome = true)
    (shown : ∀ detailed, (after.screen = .detailed detailed ∨
      ∃ edit, after.screen = .edit edit detailed) → ∃ key : Key, detailed.uid = key.text) :
    Adding userRef (history ++ [(app, action)]) after := by
  -- The list is the same, and nothing was saved or deleted.
  have uids : after.home.uids = app.home.uids := by
    rw [HomeViewController.uids, HomeViewController.loadedCards_of_kept cards heap,
      HomeViewController.uids]
  refine ⟨defaults ▸ adding.current, well, ?_, ?_, shown, ?_, ?_, ?_, ?_⟩
  · rw [cards]
    exact scanning
  · rw [server]
    exact objects
  · rw [loads, id, server]
    exact adding.loads
  · rw [uids]
    exact adding.nodup
  · simpa [saving, deleting, server] using adding.stored
  · simpa [saving, deleting, loads, uids] using adding.present

/-- A saved card is stored, and listed once if it is reported. -/
private theorem adding_saved {action : Action} {hasDelegate : Bool} {server : Server}
    {name barcode cardId : String} {autoId : PushId} (adding : Adding userRef history app)
    (saving : savedUid action = some autoId.text) (deleting : app.deletedUid action = none)
    (shown : app.screen = .scanner hasDelegate) (fresh : app.isFreshId autoId = true)
    (stored : DatabaseService.saveCard app.defaults app.server
      [(Key.name, .string name), (Key.barcode, .string barcode)] autoId = .ok (server, cardId))
    (reported : app.screen ≠ .scanner false ∨ app.loads ≠ [])
    (well : (app.added hasDelegate server (Card.make cardId name barcode .shop)).WellOpened) :
    Adding userRef (history ++ [(app, action)])
      (app.added hasDelegate server (Card.make cardId name barcode .shop)) := by
  have current := adding.current
  rcases DatabaseService.saveCard_ok stored with ⟨nobody, _⟩ | ⟨other, found, rfl, written⟩
  · simp [current] at nobody
  obtain rfl : userRef = other := Option.some.inj (current.symm.trans found)
  have performed := Server.performed_of_perform written
  have unknown := not_knows_of_isFreshId current fresh
  have still : ∀ uid, app.server.Knows userRef uid → server.Knows userRef uid := fun uid known =>
    known.of_performed performed rfl
  have new : server.Knows userRef autoId.text :=
    ⟨autoId.key, rfl, .inr ⟨_, by rw [performed.2]; exact List.mem_concat_self, rfl⟩⟩
  have old := adding.objects.imp fun card known => still card.uid known
  -- The list gets the new uid exactly if the delegate is set.
  have uids : (app.added hasDelegate server (Card.make autoId.text name barcode .shop)).home.uids =
      app.home.uids ++ if hasDelegate then [autoId.text] else [] := by
    show (HomeViewController.viewWillAppear _).uids = _
    rw [HomeViewController.uids, HomeViewController.loadedCards_viewWillAppear]
    cases hasDelegate with
    | false => simp [HomeViewController.uids]
    | true =>
      obtain ⟨refs, listed⟩ := Option.isSome_iff_exists.mp (adding.scanning shown)
      have entered := HomeViewController.loadedCards_userDidEnterCard listed adding.objects.listed
        (Card.make autoId.text name barcode .shop)
      rw [if_pos rfl, entered, HomeViewController.uids, HomeViewController.loadedCards, listed]
      simp [Card.make]
  have unlisted : autoId.text ∉ app.home.uids := by
    intro listed
    obtain ⟨card, member, same⟩ := List.mem_map.mp listed
    cases loaded : app.home.loadedCards with
    | none => simp [loaded] at member
    | some cards =>
      have known := adding.objects.good_of_loaded loaded card (by simpa [loaded] using member)
      exact unknown (same ▸ known)
  refine ⟨current, well, by simp [added, popToRoot], ?_, by simp [added, popToRoot], ?_, ?_, ?_, ?_⟩
  · refine HomeViewController.Objects.viewWillAppear ?_
    show HomeViewController.Objects _ (if hasDelegate then _ else _)
    split
    · exact old.userDidEnterCard new
    · exact old
  · intro load member
    obtain ⟨home, path, read⟩ := adding.loads load member
    refine ⟨?_, path, fun cards answered => ?_⟩
    · rw [home]
      cases hasDelegate <;> simp [added, popToRoot]
    · obtain ⟨distinct, known⟩ := read cards answered
      exact ⟨distinct, fun card listed => still card.uid (known card listed)⟩
  · rw [uids]
    refine List.Nodup.append adding.nodup ?_ ?_
    · split <;> simp
    · intro uid listed added
      split at added
      · exact unlisted (List.mem_singleton.mp added ▸ listed)
      · simp at added
  · intro uid saved kept
    show uid ∈ (server.database.cards userRef).map Card.uid
    rw [performed.1]
    by_cases latest : uid = autoId.text
    · rw [latest]
      exact Database.mem_uids_apply_newCardRequest
    · have before : uid ∈ savedUids history := by simpa [saving, latest] using saved
      have listed := adding.stored uid before (by simpa [deleting] using kept)
      obtain ⟨key, rfl⟩ := Node.exists_key_of_mem_uids listed
      refine Database.mem_uids_apply_of_ne rfl ?_ listed
      rintro rfl
      exact latest rfl
  · intro idle uid saved kept
    have idleBefore : app.loads = [] := idle
    -- No load is pending, so the delegate is set.
    have reporting : hasDelegate = true := by
      rcases reported with delegate | pending
      · cases hasDelegate with
        | false => exact absurd shown delegate
        | true => rfl
      · exact absurd idleBefore pending
    rw [uids, reporting]
    by_cases latest : uid = autoId.text
    · simp [latest]
    · have before : uid ∈ savedUids history := by simpa [saving, latest] using saved
      exact List.mem_append_left _
        (adding.present idleBefore uid before (by simpa [deleting] using kept))

/-- A deletion starts a load, so that nothing is said about the list. -/
private theorem adding_deleted {edit : EditCardTableViewController}
    {detailed : DetailedViewController} {server : Server} (adding : Adding userRef history app)
    (shown : app.screen = .edit edit detailed)
    (performed : app.server.Performed server (app.request .deleteCard))
    (well : (reloading { app with server := server } detailed.hasDelegates).popToRoot.WellOpened) :
    Adding userRef (history ++ [(app, .deleteCard)])
      (reloading { app with server := server } detailed.hasDelegates).popToRoot := by
  have current := adding.current
  have opened := adding.well.opened
  simp only [OpenedFromList, shown] at opened
  obtain ⟨key, uid⟩ := adding.shown detailed (.inr ⟨edit, shown⟩)
  have edited : edit.uid = key.text := by
    rw [opened.2]
    exact uid
  have requested : app.request .deleteCard = some (removeRequest userRef key.text) := by
    simp [request, requestFor, shown, current, edited]
  rw [requested] at performed
  have addressed : (removeRequest userRef key.text).path =
      DatabaseService.cardsPath userRef ++ [key] := Database.recordPath_text userRef key
  -- A record that was known stays so; the deletion addresses it once more.
  have still : ∀ uid, app.server.Knows userRef uid → server.Knows userRef uid := fun uid known =>
    known.of_performed performed addressed
  rw [opened.1] at well ⊢
  have loads : (reloading { app with server := server } true).popToRoot.loads = app.loads ++
      [{ task := app.nextTask, home := app.home.id, initial := false
         path := DatabaseService.cardsPath userRef, snapshot := none }] := by
    simp [popToRoot, reloading, withLoad, current]
  have home : (reloading { app with server := server } true).popToRoot.home =
      app.home.viewWillAppear := by simp [popToRoot]
  refine ⟨?_, well, by simp [popToRoot], ?_, by simp [popToRoot], ?_, ?_, ?_, ?_⟩
  · simpa [popToRoot] using current
  · rw [home]
    simpa [popToRoot] using (adding.objects.imp fun card known => still card.uid known).viewWillAppear
  · intro load member
    rw [loads] at member
    rw [home, HomeViewController.id_viewWillAppear]
    rcases List.mem_append.mp member with old | new
    · obtain ⟨own, path, read⟩ := adding.loads load old
      refine ⟨own, path, fun cards answered => ?_⟩
      obtain ⟨distinct, known⟩ := read cards answered
      refine ⟨distinct, fun card listed => ?_⟩
      simpa [popToRoot] using still card.uid (known card listed)
    · obtain rfl := List.mem_singleton.mp new
      exact ⟨rfl, rfl, fun cards answered => by cases answered⟩
  · rw [home]
    simpa [HomeViewController.uids] using adding.nodup
  · intro uid saved kept
    have before : uid ∈ savedUids history := by simpa [savedUid] using saved
    simp only [deletedUids_snoc, deletedUid, shown, edited, Option.toList_some, List.mem_append,
      List.mem_singleton, not_or] at kept
    have listed := adding.stored uid before kept.1
    obtain ⟨other, rfl⟩ := Node.exists_key_of_mem_uids listed
    have different : other ≠ key := fun same => kept.2 (congrArg Key.text same)
    have stays := Database.mem_uids_apply_of_ne addressed different listed
    rw [← performed.1] at stays
    simpa [popToRoot] using stays
  · intro idle
    rw [loads] at idle
    simp at idle

/-- What the database answers is in the database. -/
private theorem adding_snapshotRead {task : Nat} (adding : Adding userRef history app) :
    Adding userRef (history ++ [(app, .snapshotRead task)])
      { app with
        loads := app.loads.map fun load =>
          if load.task = task then
            { load with snapshot := some (Node.cards (app.server.database.get load.path)) }
          else load } := by
  refine ⟨adding.current, ⟨adding.well.rows, adding.well.opened⟩, adding.scanning, adding.objects,
    adding.shown, ?_, adding.nodup, ?_, ?_⟩
  · intro load member
    obtain ⟨asked, old, rfl⟩ := List.mem_map.mp member
    obtain ⟨home, path, read⟩ := adding.loads asked old
    -- The answer is what the database has now; other loads keep theirs.
    by_cases concerned : asked.task = task
    · simp only [concerned, if_true]
      refine ⟨home, path, fun cards answered => ?_⟩
      obtain rfl := Option.some.inj answered
      rw [path]
      have canonical := app.server.database.canonical_get (DatabaseService.cardsPath userRef)
      exact ⟨Node.nodup_uids canonical, fun card listed => Server.knows_of_mem_cards listed⟩
    · simp only [concerned, if_false]
      exact ⟨home, path, read⟩
  · simpa [savedUid, deletedUid] using adding.stored
  · intro idle
    have before : app.loads = [] := List.map_eq_nil_iff.mp idle
    simpa [savedUid, deletedUid] using adding.present before

/-- A delivered load lists what it has read, which is everything if no load is left. -/
private theorem adding_loadDelivered {task : Nat} {load : Load} {cards : List Card}
    (adding : Adding userRef history app)
    (found : app.loads.find? (fun load => load.task = task) = some load)
    (answered : load.snapshot = some cards) (complete : app.AddsReported (.loadDelivered task)) :
    Adding userRef (history ++ [(app, .loadDelivered task)])
      { app with
        loads := app.loads.filter fun load => load.task ≠ task
        home := app.home.loadCompletion load.initial cards } := by
  have member := List.mem_of_find?_eq_some found
  obtain ⟨_, path, read⟩ := adding.loads load member
  obtain ⟨distinct, known⟩ := read cards answered
  -- The list becomes what was read.
  have uids : (app.home.loadCompletion load.initial cards).uids = cards.map Card.uid := by
    rw [HomeViewController.uids, app.home.loadedCards_loadCompletion load.initial cards,
      Option.getD_some]
  obtain ⟨_, _, _, _, shape⟩ := app.home.loadCompletion_frame load.initial cards
  have loaded : (app.home.loadCompletion load.initial cards).cards.isSome = true := by
    rw [shape]
    rfl
  have id : (app.home.loadCompletion load.initial cards).id = app.home.id := by
    rw [shape]
    rfl
  refine ⟨adding.current, ⟨?_, adding.well.opened⟩, fun _ => loaded,
    adding.objects.loadCompletion load.initial known, adding.shown, ?_, ?_, ?_, ?_⟩
  · obtain ⟨refs, listed⟩ := Option.isSome_iff_exists.mp loaded
    exact HomeViewController.rowsLoaded_of_loaded listed
  · intro other still
    rw [id]
    exact adding.loads other (List.mem_of_mem_filter still)
  · rw [uids]
    exact distinct
  · simpa [savedUid, deletedUid] using adding.stored
  · intro idle uid saved kept
    have stored := adding.stored uid (by simpa [savedUid] using saved)
      (by simpa [deletedUid] using kept)
    obtain ⟨card, listed, rfl⟩ := List.mem_map.mp stored
    rw [uids]
    refine complete idle load member cards answered card ?_
    rw [path]
    exact listed

/-- Every step of the described kind keeps what holds while cards are added and deleted. -/
private theorem adding_step {action : Action} (adding : Adding userRef history app)
    (kind : addsOrDeletes action = true) (reported : app.AddsReported action)
    (stepped : Steps platform app action after) :
    Adding userRef (history ++ [(app, action)]) after := by
  have performed := step_request stepped
  have well := adding.well.step stepped
  -- Actions of another kind are excluded at the end.
  cases stepped with
  | snapshotRead asked => exact adding_snapshotRead adding
  | loadDelivered found answered =>
    rename_i load cards
    have own := (adding.loads load (List.mem_of_find?_eq_some found)).1
    simp only [own, if_true]
    exact adding_loadDelivered adding found answered reported
  | searchChanged shown =>
    exact adding_moved adding rfl rfl rfl rfl rfl (by simp) (by simp) (by simp)
      (adding.objects.updateSearchResults _ _ _) well (by simp [shown]) (by simp [shown])
  | addCardSegue shown =>
    exact adding_moved adding rfl rfl rfl rfl rfl rfl rfl rfl adding.objects well (by simp) (by simp)
  | cellSegue shown inside filled =>
    obtain ⟨card, ⟨key, uid, _⟩, rfl⟩ := adding.objects.detailedCard adding.well.rows inside filled
    refine adding_moved adding rfl rfl rfl rfl rfl rfl rfl rfl adding.objects well (by simp) ?_
    rintro detailed (here | ⟨edit, here⟩)
    · obtain rfl := Screen.detailed.inj here
      exact ⟨key, uid⟩
    · cases here
  | scanned shown fresh stored =>
    exact adding_saved adding rfl rfl shown fresh stored reported well
  | @addNewCard hasDelegate name barcode cardId autoId server shown filled fresh stored =>
    have saving : savedUid (.addNewCard name barcode autoId) = some autoId.text := by
      simp only [savedUid, filled, Bool.false_eq_true, if_false]
    refine adding_saved adding saving rfl shown fresh stored ?_ well
    rcases reported with missing | reported
    · simp [filled] at missing
    · exact reported
  | @addNewCardAlert hasDelegate name barcode autoId shown missing =>
    have saving : savedUid (.addNewCard name barcode autoId) = none := by
      simp only [savedUid, missing, if_true]
    exact adding_moved adding saving rfl rfl rfl rfl rfl rfl rfl adding.objects well adding.scanning
      adding.shown
  | editSegue shown =>
    refine adding_moved adding rfl rfl rfl rfl rfl rfl rfl rfl adding.objects well (by simp) ?_
    rintro detailed (here | ⟨edit, here⟩)
    · cases here
    · cases here
      exact adding.shown _ (.inl shown)
  | @deleteCard edit detailed cleaned server shown removed deleted =>
    simp only [popToRoot, server_reloading] at performed
    exact adding_deleted adding shown performed well
  | @backToDetail edit detailed shown =>
    refine adding_moved adding rfl rfl rfl rfl rfl rfl rfl rfl adding.objects well (by simp) ?_
    rintro opened (here | ⟨other, here⟩)
    · obtain rfl := Screen.detailed.inj here
      exact adding.shown _ (.inr ⟨edit, shown⟩)
    · cases here
  | backToRoot shown =>
    exact adding_moved adding rfl rfl rfl rfl rfl (by simp [popToRoot]) (by simp [popToRoot])
      (by simp [popToRoot]) adding.objects.viewWillAppear well (by simp [popToRoot])
      (by simp [popToRoot])
  | _ => simp [addsOrDeletes] at kind

/-- When the home screen has just been created, nothing was added yet. -/
private theorem adding_opened {server : Server} {defaults : UserDefaults} {opened : App}
    (current : DatabaseService.getCurrentUserRef defaults = some userRef)
    (loading : App.next platform (App.launched server defaults) .homeViewDidLoad = some opened) :
    Adding userRef [] opened := by
  have well := wellOpened_of_run (Run.snoc .nil loading)
  -- The first load is pending, and the list is empty.
  cases steps_of_next loading
  refine ⟨by simpa [launched] using current, well, by simp, ?_, by simp, ?_, ?_,
    by simp [savedUids], by simp [savedUids]⟩
  · rw [home_withLoad]
    exact HomeViewController.objects_new _
  · intro load member
    simp only [withLoad, launched, current, List.nil_append, List.mem_singleton] at member ⊢
    subst member
    exact ⟨rfl, rfl, fun cards answered => by cases answered⟩
  · rw [home_withLoad]
    exact List.nodup_nil

/-- Whatever loads are pending in between, once none is, each card added since the home screen was
created is listed exactly once, if the additions were reported. -/
theorem added_cards_listed_once {server : Server} {defaults : UserDefaults} {opened : App}
    (current : DatabaseService.getCurrentUserRef defaults = some userRef)
    (loading : App.next platform (App.launched server defaults) .homeViewDidLoad = some opened)
    (run : Run (App.next platform) opened history final)
    (kind : Run.Within (fun _ action => addsOrDeletes action = true) history)
    (reported : Run.Within AddsReported history) (idle : final.loads = []) :
    ∀ uid ∈ savedUids history, uid ∉ deletedUids history → final.home.uids.count uid = 1 := by
  -- By induction on the run; the uids in the list stay distinct.
  have adding : Adding userRef history final := by
    clear idle
    induction run with
    | nil => exact adding_opened current loading
    | snoc earlier taken ih =>
      obtain ⟨kinds, lastKind⟩ := Run.within_snoc.mp kind
      obtain ⟨before, last⟩ := Run.within_snoc.mp reported
      exact adding_step (ih kinds before) lastKind last (steps_of_next taken)
  intro uid saved kept
  exact List.count_eq_one_of_mem adding.nodup (adding.present idle uid saved kept)

/-- The home screen of the first user has just been created. -/
def Scenario.homeOpened : Option App :=
  (App.launched Scenario.emptyServer Scenario.annaSignedIn).next Platform.ascii .homeViewDidLoad

/-- A card is scanned after the first load was delivered. -/
def Scenario.loadThenScan : List Action :=
  [.snapshotRead 0, .loadDelivered 0, .addCardSegue, .scanned "Lidl" "123" Scenario.firstId]

/-- A card scanned after the first load is listed once. -/
theorem added_cards_listed_once_loadThenScan :
    ∃ opened final, Scenario.homeOpened = some opened ∧
      Run (App.next Platform.ascii) opened (Scenario.history opened Scenario.loadThenScan) final ∧
      final.home.uids.count Scenario.firstId.text = 1 := by
  have possible : Scenario.homeOpened.any (fun opened =>
      (Scenario.reached opened Scenario.loadThenScan).any (fun final => final.loads = []) &&
        (Scenario.history opened Scenario.loadThenScan).all (fun entry =>
          match entry.2 with
          | .snapshotRead _ | .addCardSegue => true
          | .loadDelivered _ => entry.1.loads.all fun load =>
              Node.cards (entry.1.server.database.get load.path) = []
          | .scanned _ _ _ => entry.1.screen = .scanner true
          | _ => false) &&
        savedUids (Scenario.history opened Scenario.loadThenScan) = [Scenario.firstId.text] &&
        deletedUids (Scenario.history opened Scenario.loadThenScan) = []) = true := by
    decide +kernel
  obtain ⟨opened, loading, facts⟩ := (Option.any_eq_true _ _).mp possible
  simp only [Bool.and_eq_true, List.all_eq_true, Option.any_eq_true, decide_eq_true_eq] at facts
  obtain ⟨⟨⟨⟨final, ends, idle⟩, steps⟩, saved⟩, deleted⟩ := facts
  have run := Scenario.run_of_ends ends
  have current : DatabaseService.getCurrentUserRef Scenario.annaSignedIn =
      some "anna@mail_com" := by decide
  have loaded : App.next Platform.ascii (App.launched Scenario.emptyServer Scenario.annaSignedIn)
      .homeViewDidLoad = some opened := loading
  refine ⟨opened, final, loading, run, added_cards_listed_once current loaded run ?_ ?_ idle
    Scenario.firstId.text (by rw [saved]; simp) (by rw [deleted]; simp)⟩
  · rintro ⟨state, action⟩ member
    have allowed := steps _ member
    cases action <;> first | rfl | simp at allowed
  · -- The only load finds nothing, and the scanner has its delegate.
    rintro ⟨state, action⟩ member
    have allowed := steps _ member
    cases action with
    | loadDelivered task =>
      intro _ load pending cards _ card listed
      have nothing := of_decide_eq_true (List.all_eq_true.mp allowed load pending)
      simp [nothing] at listed
    | scanned name barcode autoId =>
      have delegated : state.screen = .scanner true := of_decide_eq_true allowed
      exact .inl (by simp [delegated])
    | snapshotRead task => trivial
    | addCardSegue => trivial
    | _ => simp at allowed

/-- A card is scanned before the first load was delivered. -/
def Scenario.scanThenLoad : List Action :=
  [.addCardSegue, .snapshotRead 0, .loadDelivered 0, .scanned "Lidl" "123" Scenario.firstId]

/-- A card scanned by a scanner without delegate is missing from the list. -/
theorem scanned_card_missing :
    ¬ ∀ (server : Server) (defaults : UserDefaults) (userRef : String) (opened final : App)
        (history : List (App × Action)),
        DatabaseService.getCurrentUserRef defaults = some userRef →
        App.next Platform.ascii (App.launched server defaults) .homeViewDidLoad = some opened →
        Run (App.next Platform.ascii) opened history final →
        Run.Within (fun _ action => addsOrDeletes action = true) history → final.loads = [] →
        ∀ uid ∈ savedUids history, uid ∉ deletedUids history → final.home.uids.count uid = 1 := by
  intro always
  -- The delegate was not set when the scanner was opened, since nothing was loaded by then.
  have possible : Scenario.homeOpened.any (fun opened =>
      (Scenario.reached opened Scenario.scanThenLoad).any (fun final =>
        final.loads = [] ∧ final.home.uids = []) &&
        (Scenario.history opened Scenario.scanThenLoad).all (fun entry => addsOrDeletes entry.2) &&
        savedUids (Scenario.history opened Scenario.scanThenLoad) = [Scenario.firstId.text] &&
        deletedUids (Scenario.history opened Scenario.scanThenLoad) = []) = true := by
    decide +kernel
  obtain ⟨opened, loading, facts⟩ := (Option.any_eq_true _ _).mp possible
  simp only [Bool.and_eq_true, List.all_eq_true, Option.any_eq_true, decide_eq_true_eq] at facts
  obtain ⟨⟨⟨⟨final, ends, idle, missing⟩, kind⟩, saved⟩, deleted⟩ := facts
  have once := always Scenario.emptyServer Scenario.annaSignedIn "anna@mail_com" opened final _
    (by decide) loading (Scenario.run_of_ends ends) kind idle Scenario.firstId.text (by rw [saved]; simp)
    (by rw [deleted]; simp)
  rw [missing] at once
  simp at once

end App

end CardGuru
