import CardGuru.App.BatchWrites
import CardGuru.Proofs.HomeList

/-! Operations on different cards that are in flight together: the server ends the same however they
interleave, and the home list ends the same unless the reload delivered last has lost one. -/

namespace CardGuru

/-- The edit that an upload is about to write. -/
def Upload.edit (upload : Upload) : CardOperation :=
  .edit upload.card.uid upload.card.name upload.card.barcode

namespace App

/-- The operation on a card that an action makes. -/
def operated (app : App) : Action → Option CardOperation
  | .saveNotesClicked text =>
    match app.screen with
    | .detailed detailed => some (.addNotes detailed.uid text)
    | _ => none
  | .saveCard name barcode _ _ =>
    match app.screen with
    | .edit edit _ =>
      -- With an empty field only an alert is shown.
      if EditCardTableViewController.isEnteredDataValid name barcode then
        some (.edit edit.uid name barcode)
      else none
    | _ => none
  | .deleteCard =>
    match app.screen with
    | .edit edit _ => some (.delete edit.uid)
    | _ => none
  | _ => none

/-- The operations of a history, in the order in which the user made them. -/
def operations (history : List (App × Action)) : List CardOperation :=
  history.filterMap fun entry => entry.1.operated entry.2

/-- A change of a card, a successful completion, or a move between the screens. -/
def operating : Action → Bool
  | .saveNotesClicked _ | .saveCard _ _ _ _ | .deleteCard => true
  | .uploadFinished _ (.stored _) | .snapshotRead _ | .loadDelivered _ => true
  | .searchChanged _ _ | .addCardSegue | .cellSegue _ | .editSegue | .back => true
  | _ => false

/-- Which operations the answers of the database do not contain. -/
structure Reading where
  /-- The operations that the answer of a load lacks. -/
  missing : Nat → List CardOperation
  /-- The operations that the load delivered last took from the home screen. -/
  lost : List CardOperation
  /-- The deletions that no delivered load could show yet. -/
  awaited : List CardOperation

/-- Follow one more action. -/
def Reading.observe (reading : Reading) (entry : App × Action) : Reading :=
  match entry.2 with
  | .snapshotRead task =>
    -- An edit is in the database once its upload has ended.
    { reading with
      missing := fun other =>
        if other = task then entry.1.uploads.map Upload.edit else reading.missing other }
  | .loadDelivered task => { reading with lost := reading.missing task, awaited := [] }
  | action =>
    -- What is made after an answer was read is missing in it.
    { reading with
      missing := fun task => reading.missing task ++ (entry.1.operated action).toList
      awaited := reading.awaited ++ (entry.1.operated action).toList.filter CardOperation.isDeletion }

/-- What the answers of a whole history lack. -/
def reading (history : List (App × Action)) : Reading :=
  history.foldl Reading.observe { missing := fun _ => [], lost := [], awaited := [] }

variable {platform : Platform} {app after start final : App} {history : List (App × Action)}
  {userRef : String} {database : Database}

@[simp] theorem operations_snoc {action : Action} :
    operations (history ++ [(app, action)]) = operations history ++ (app.operated action).toList := by
  -- The last entry makes at most one operation.
  cases made : app.operated action <;> simp [operations, made]

@[simp] theorem reading_snoc {action : Action} :
    reading (history ++ [(app, action)]) = (reading history).observe (app, action) := by
  simp [reading]

/-- Every operation changes a card of the list. -/
theorem isChange_of_operated {action : Action} {operation : CardOperation}
    (made : app.operated action = some operation) : operation.isChange = true := by
  -- Notes, edits and deletions are made of screens that show a card.
  unfold operated at made
  split at made
  · split at made <;> cases made
    rfl
  · split at made
    · split at made <;> cases made
      rfl
    · cases made
  · split at made <;> cases made
    rfl
  · cases made

/-- The operations of a history change cards. -/
theorem isChange_of_operations :
    ∀ operation ∈ operations history, operation.isChange = true := by
  intro operation member
  obtain ⟨entry, _, made⟩ := List.mem_filterMap.mp member
  exact isChange_of_operated made

/-- What holds while operations on different cards are in flight. -/
structure Tracked (userRef : String) (database : Database) (history : List (App × Action))
    (app : App) : Prop where
  current : DatabaseService.getCurrentUserRef app.defaults = some userRef
  well : app.WellOpened
  /-- Every pending load reads the cards of the user for the present home screen. -/
  loads : ∀ load ∈ app.loads,
    load.home = app.home.id ∧ load.path = DatabaseService.cardsPath userRef
  /-- The server holds the effect of all operations but the edits whose uploads are pending. -/
  server : ∃ written, (written ++ app.uploads.map Upload.edit).Perm (operations history) ∧
    app.server.database.views userRef =
      CardOperation.performAll written (database.views userRef) ∧
    CardOperation.Leaves userRef database written app.server.database
  /-- The home list shows the effect of all operations but the lost and the awaited ones. -/
  home : ∃ applied,
    (applied ++ ((reading history).lost ++ (reading history).awaited)).Perm (operations history) ∧
      app.home.views = some (CardOperation.performAll applied (database.views userRef))
  /-- An answer shows the effect of all operations but those it lacks. -/
  answered : ∀ load ∈ app.loads, ∀ cards, load.snapshot = some cards →
    ∃ read, (read ++ (reading history).missing load.task).Perm (operations history) ∧
      cards.map Card.view = CardOperation.performAll read (database.views userRef)
  /-- What is awaited is awaited from a pending load. -/
  awaiting : (reading history).awaited ≠ [] → app.loads ≠ []

/-- One more operation may be put after the first part of a batch. -/
private theorem perm_insert {first second all : List CardOperation}
    (order : (first ++ second).Perm all) (operation : CardOperation) :
    (first ++ [operation] ++ second).Perm (all ++ [operation]) := by
  rw [List.append_assoc]
  -- It moves to the end, past the second part.
  have moved : (first ++ ([operation] ++ second)).Perm (first ++ (second ++ [operation])) :=
    List.perm_append_comm.append_left first
  rw [← List.append_assoc first second] at moved
  exact moved.trans (order.append_right [operation])

/-- One more operation may be put at the end of a batch. -/
private theorem perm_extend {first second all : List CardOperation}
    (order : (first ++ second).Perm all) (operation : CardOperation) :
    (first ++ (second ++ [operation])).Perm (all ++ [operation]) := by
  rw [← List.append_assoc]
  exact order.append_right [operation]

/-- The write of one more operation on a card of its own takes part in the effect on the server. -/
private theorem written_snoc {written : List CardOperation} {operation : CardOperation}
    {write : DatabaseWrite} {server : Database}
    (views : server.views userRef = CardOperation.performAll written (database.views userRef))
    (leaves : CardOperation.Leaves userRef database written server)
    (changes : ∀ other ∈ written, other.isChange = true)
    (requested : CardOperation.Requested userRef operation write)
    (listed : operation.uid ∈ (database.views userRef).map Card.View.uid)
    (apart : ∀ other ∈ written, other.uid ≠ operation.uid) :
    (server.apply write).views userRef =
        CardOperation.performAll (written ++ [operation]) (database.views userRef) ∧
      CardOperation.Leaves userRef database (written ++ [operation]) (server.apply write) := by
  -- The operations before it have left the card in the list.
  have still : operation.uid ∈ (server.views userRef).map Card.View.uid := by
    rw [views]
    exact CardOperation.uid_mem_performAll changes apart listed
  refine ⟨?_, leaves.snoc requested still apart⟩
  rw [requested.views still, views, CardOperation.performAll_append]
  rfl

/-- Steps that concern neither a card nor pending work keep track of everything. -/
private theorem tracked_silent {action : Action} (tracked : Tracked userRef database history app)
    (made : app.operated action = none)
    (observed : (reading history).observe (app, action) = reading history)
    (well : after.WellOpened) (defaults : after.defaults = app.defaults)
    (server : after.server = app.server) (views : after.home.views = app.home.views)
    (id : after.home.id = app.home.id) (uploads : after.uploads = app.uploads)
    (loads : after.loads = app.loads) :
    Tracked userRef database (history ++ [(app, action)]) after := by
  -- Nothing that is tracked changes, and no operation is added.
  refine ⟨defaults ▸ tracked.current, well, ?_, ?_, ?_, ?_, ?_⟩
  · rw [loads, id]
    exact tracked.loads
  · rw [uploads, server]
    simpa [made] using tracked.server
  · rw [views]
    simpa [made, observed] using tracked.home
  · rw [loads]
    simpa [made, observed] using tracked.answered
  · rw [loads, reading_snoc, observed]
    exact tracked.awaiting

/-- An answer lacks the edits whose uploads are pending when it is read. -/
private theorem tracked_snapshotRead {task : Nat} (tracked : Tracked userRef database history app)
    (well : WellOpened
      { app with
        loads := app.loads.map fun load =>
          if load.task = task then
            { load with snapshot := some (Node.cards (app.server.database.get load.path)) }
          else load }) :
    Tracked userRef database (history ++ [(app, .snapshotRead task)])
      { app with
        loads := app.loads.map fun load =>
          if load.task = task then
            { load with snapshot := some (Node.cards (app.server.database.get load.path)) }
          else load } := by
  -- The answer has all operations that were written before it.
  refine ⟨tracked.current, well, ?_, ?_, ?_, ?_, ?_⟩
  · intro load member
    obtain ⟨before, inside, rfl⟩ := List.mem_map.mp member
    have concerns := tracked.loads before inside
    split
    · exact concerns
    · exact concerns
  · simpa [operated] using tracked.server
  · simpa [operated, Reading.observe] using tracked.home
  · intro load member cards snapshot
    obtain ⟨before, inside, rfl⟩ := List.mem_map.mp member
    simp only [reading_snoc, Reading.observe, operations_snoc, operated, Option.toList_none,
      List.append_nil]
    by_cases asked : before.task = task
    · -- The answer is what the server holds now.
      obtain ⟨written, order, views, _⟩ := tracked.server
      simp only [asked, if_true, Option.some.injEq] at snapshot
      refine ⟨written, by simpa [asked] using order, ?_⟩
      rw [← snapshot, (tracked.loads before inside).2, ← views]
      rfl
    · simp only [asked, if_false] at snapshot
      simpa [asked] using tracked.answered before inside cards snapshot
  · intro some
    have waiting := tracked.awaiting (by simpa [Reading.observe] using some)
    simpa using waiting

/-- A delivered load takes from the home list what its answer lacks. -/
private theorem tracked_loadDelivered {task : Nat} {load : Load} {cards : List Card}
    (tracked : Tracked userRef database history app)
    (found : app.loads.find? (fun load => load.task = task) = some load)
    (answered : load.snapshot = some cards)
    (well : WellOpened
      { app with
        loads := app.loads.filter fun load => load.task ≠ task
        home :=
          if load.home = app.home.id then
            if load.initial then app.home.viewDidLoadCompletion cards
            else app.home.userDidRemoveDataCompletion cards
          else app.home }) :
    Tracked userRef database (history ++ [(app, .loadDelivered task)])
      { app with
        loads := app.loads.filter fun load => load.task ≠ task
        home :=
          if load.home = app.home.id then
            if load.initial then app.home.viewDidLoadCompletion cards
            else app.home.userDidRemoveDataCompletion cards
          else app.home } := by
  have member := List.mem_of_find?_eq_some found
  have named : load.task = task := by simpa using List.find?_some found
  obtain ⟨concerns, path⟩ := tracked.loads load member
  obtain ⟨read, order, shows⟩ := tracked.answered load member cards answered
  have id : (app.home.loadCompletion load.initial cards).id = app.home.id := by
    obtain ⟨_, _, _, _, same⟩ := app.home.loadCompletion_frame load.initial cards
    rw [same]
    rfl
  rw [if_pos concerns] at well ⊢
  refine ⟨tracked.current, well, ?_, ?_, ?_, ?_, ?_⟩
  · intro other inside
    have kept := tracked.loads other (List.mem_of_mem_filter inside)
    exact ⟨kept.1.trans id.symm, kept.2⟩
  · simpa [operated] using tracked.server
  · refine ⟨read, ?_, ?_⟩
    · simpa [Reading.observe, operated, named] using order
    · show (app.home.loadCompletion load.initial cards).views = _
      rw [HomeViewController.views, HomeViewController.loadedCards_loadCompletion, Option.map_some,
        shows]
  · intro other inside answer snapshot
    simpa [Reading.observe, operated] using
      tracked.answered other (List.mem_of_mem_filter inside) answer snapshot
  · intro some
    simp [Reading.observe] at some

/-- The operations of a history that is going on concern cards of the list, each another one. -/
def Separate (database : Database) (userRef : String) (operations : List CardOperation) : Prop :=
  (operations.map CardOperation.uid).Nodup ∧
    ∀ operation ∈ operations, operation.uid ∈ (database.views userRef).map Card.View.uid

/-- The operations made so far are separate as well. -/
theorem Separate.before {first second : List CardOperation}
    (separate : Separate database userRef (first ++ second)) : Separate database userRef first := by
  -- Part of a list without repetitions has none either.
  refine ⟨?_, fun operation member => separate.2 operation (List.mem_append_left _ member)⟩
  have all := separate.1
  rw [List.map_append] at all
  exact all.of_append_left

/-- A new operation concerns a listed card that no operation before it concerns. -/
theorem Separate.last {earlier : List CardOperation} {operation : CardOperation}
    (separate : Separate database userRef (earlier ++ [operation])) :
    operation.uid ∈ (database.views userRef).map Card.View.uid ∧
      ∀ other ∈ earlier, other.uid ≠ operation.uid := by
  -- The last uid is none of the earlier ones.
  refine ⟨separate.2 operation (by simp), fun other member same => ?_⟩
  have all := separate.1
  rw [List.map_append] at all
  exact List.disjoint_of_nodup_append all (List.mem_map_of_mem member) (by simp [same])

/-- The listed uids are told apart throughout if those at the beginning are. -/
private theorem Tracked.tellsApart (tracked : Tracked userRef database history app)
    (distinct : ∀ uid ∈ (database.views userRef).map Card.View.uid,
      platform.TellsApart ((database.views userRef).map Card.View.uid) uid) {uid : String}
    (listed : uid ∈ (database.views userRef).map Card.View.uid) :
    platform.TellsApart app.home.uids uid := by
  -- The operations that the list shows have brought no uid into it.
  obtain ⟨applied, order, views⟩ := tracked.home
  intro other member
  rw [HomeViewController.uids_eq_of_views views] at member
  refine distinct uid listed other (CardOperation.uids_performAll_subset ?_ member)
  intro operation inside
  exact isChange_of_operations operation (order.mem_iff.mp (List.mem_append_left _ inside))

/-- What is written was made before. -/
private theorem mem_of_written {written pending all : List CardOperation}
    (order : (written ++ pending).Perm all) : ∀ operation ∈ written, operation ∈ all :=
  fun _ member => order.mem_iff.mp (List.mem_append_left _ member)

/-- Notes are written and shown at once. -/
private theorem tracked_saveNotesClicked {detailed : DetailedViewController} {server : Server}
    {text : String} (tracked : Tracked userRef database history app)
    (distinct : platform.TellsApart app.home.uids detailed.uid) (shown : app.screen = .detailed detailed)
    (separate : Separate database userRef
      (operations history ++ [.addNotes detailed.uid text]))
    (performed : app.server.Performed server (app.request (.saveNotesClicked text)))
    (well : WellOpened
      { app with
        server := server
        home :=
          if detailed.hasDelegates then app.home.userDidAddNotes platform (detailed.notedCard text)
          else app.home
        screen := .detailed { detailed with notesText := text } }) :
    Tracked userRef database (history ++ [(app, .saveNotesClicked text)])
      { app with
        server := server
        home :=
          if detailed.hasDelegates then app.home.userDidAddNotes platform (detailed.notedCard text)
          else app.home
        screen := .detailed { detailed with notesText := text } } := by
  have reporting : detailed.hasDelegates = true := by
    simpa [OpenedFromList, shown] using tracked.well.opened
  have made : app.operated (.saveNotesClicked text) = some (.addNotes detailed.uid text) := by
    simp [operated, shown]
  have observed : (reading history).observe (app, .saveNotesClicked text) =
      { reading history with
        missing := fun task => (reading history).missing task ++ [.addNotes detailed.uid text] } := by
    simp [Reading.observe, made, CardOperation.isDeletion]
  have requested : app.request (.saveNotesClicked text) =
      some (notesRequest userRef detailed.uid text) := by
    simp [request, requestFor, shown, tracked.current]
  rw [requested] at performed
  obtain ⟨listed, apart⟩ := separate.last
  simp only [reporting, if_true] at well ⊢
  refine ⟨tracked.current, well, ?_, ?_, ?_, ?_, ?_⟩
  · simpa using tracked.loads
  · obtain ⟨written, order, views, leaves⟩ := tracked.server
    have inside := mem_of_written order
    have extended := written_snoc views leaves
      (fun other member => isChange_of_operations other (inside other member))
      (.addNotes detailed.uid text) listed fun other member => apart other (inside other member)
    refine ⟨_, ?_, performed.1 ▸ extended⟩
    rw [operations_snoc, made]
    exact perm_insert order _
  · obtain ⟨applied, order, views⟩ := tracked.home
    refine ⟨applied ++ [.addNotes detailed.uid text], ?_, ?_⟩
    · rw [operations_snoc, made, reading_snoc, observed]
      exact perm_insert order _
    · show (app.home.userDidAddNotes platform (detailed.notedCard text)).views = _
      rw [HomeViewController.views_userDidAddNotes distinct rfl, views, CardOperation.performAll_append]
      rfl
  · intro load member cards snapshot
    obtain ⟨read, order, shows⟩ := tracked.answered load member cards snapshot
    refine ⟨read, ?_, shows⟩
    rw [operations_snoc, made, reading_snoc, observed]
    exact perm_extend order _
  · rw [reading_snoc, observed]
    exact tracked.awaiting

/-- An edit is shown at once and written when its upload ends. -/
private theorem tracked_saveCard {edit : EditCardTableViewController}
    {detailed : DetailedViewController} {server : Server} {name barcode uuid : String}
    {image : UIImage} (tracked : Tracked userRef database history app)
    (distinct : platform.TellsApart app.home.uids edit.uid) (shown : app.screen = .edit edit detailed)
    (filled : EditCardTableViewController.isEnteredDataValid name barcode = true)
    (unwritten : server.database = app.server.database)
    (well : (app.saved platform detailed server (Card.make edit.uid name barcode image)
      (DatabaseService.saveCardImage app.defaults image uuid)).WellOpened) :
    Tracked userRef database (history ++ [(app, .saveCard name barcode image uuid)])
      (app.saved platform detailed server (Card.make edit.uid name barcode image)
        (DatabaseService.saveCardImage app.defaults image uuid)) := by
  -- The list has the edit at once, and the database has it when the upload ends.
  have opened := tracked.well.opened
  simp only [OpenedFromList, shown] at opened
  have made : app.operated (.saveCard name barcode image uuid) =
      some (.edit edit.uid name barcode) := by
    simp [operated, shown, filled]
  have observed : (reading history).observe (app, .saveCard name barcode image uuid) =
      { reading history with
        missing := fun task => (reading history).missing task ++ [.edit edit.uid name barcode] } := by
    simp [Reading.observe, made, CardOperation.isDeletion]
  have reported : detailed.forwardedCard (Card.make edit.uid name barcode image) =
      Card.make edit.uid name barcode image := by
    rw [opened.2]
    rfl
  have home : (app.saved platform detailed server (Card.make edit.uid name barcode image)
      (DatabaseService.saveCardImage app.defaults image uuid)).home =
        app.home.userDidUpdateData platform (Card.make edit.uid name barcode image) := by
    simp [saved, opened.1, reported]
  have uploads : (app.saved platform detailed server (Card.make edit.uid name barcode image)
      (DatabaseService.saveCardImage app.defaults image uuid)).uploads.map Upload.edit =
        app.uploads.map Upload.edit ++ [.edit edit.uid name barcode] := by
    simp [saved, DatabaseService.saveCardImage, tracked.current, Upload.edit, Card.make]
  refine ⟨tracked.current, well, ?_, ?_, ?_, ?_, ?_⟩
  · rw [home]
    simpa [saved] using tracked.loads
  · obtain ⟨written, order, views, leaves⟩ := tracked.server
    refine ⟨written, ?_, ?_⟩
    · rw [operations_snoc, made, uploads]
      exact perm_extend order _
    · show server.database.views userRef = _ ∧ CardOperation.Leaves userRef database written server.database
      rw [unwritten]
      exact ⟨views, leaves⟩
  · obtain ⟨applied, order, views⟩ := tracked.home
    refine ⟨applied ++ [.edit edit.uid name barcode], ?_, ?_⟩
    · rw [operations_snoc, made, reading_snoc, observed]
      exact perm_insert order _
    · rw [home, HomeViewController.views_userDidUpdateData distinct, views, CardOperation.performAll_append]
      rfl
  · intro load member cards snapshot
    obtain ⟨read, order, shows⟩ := tracked.answered load member cards snapshot
    refine ⟨read, ?_, shows⟩
    rw [operations_snoc, made, reading_snoc, observed]
    exact perm_extend order _
  · rw [reading_snoc, observed]
    exact tracked.awaiting

/-- A deletion is written at once and shown when a later answer is delivered. -/
private theorem tracked_deleteCard {edit : EditCardTableViewController}
    {detailed : DetailedViewController} {server : Server}
    (tracked : Tracked userRef database history app) (shown : app.screen = .edit edit detailed)
    (separate : Separate database userRef (operations history ++ [.delete edit.uid]))
    (performed : app.server.Performed server (app.request .deleteCard))
    (well : (reloading { app with server := server } detailed.hasDelegates).popToRoot.WellOpened) :
    Tracked userRef database (history ++ [(app, .deleteCard)])
      (reloading { app with server := server } detailed.hasDelegates).popToRoot := by
  -- The record is removed at once, and the list is read again.
  have opened := tracked.well.opened
  simp only [OpenedFromList, shown] at opened
  have made : app.operated .deleteCard = some (.delete edit.uid) := by simp [operated, shown]
  have observed : (reading history).observe (app, .deleteCard) =
      { reading history with
        missing := fun task => (reading history).missing task ++ [.delete edit.uid]
        awaited := (reading history).awaited ++ [.delete edit.uid] } := by
    simp [Reading.observe, made, CardOperation.isDeletion]
  have requested : app.request .deleteCard = some (removeRequest userRef edit.uid) := by
    simp [request, requestFor, shown, tracked.current]
  rw [requested] at performed
  obtain ⟨listed, apart⟩ := separate.last
  rw [opened.1] at well ⊢
  let load : Load :=
    { task := app.nextTask, home := app.home.id, initial := false
      path := DatabaseService.cardsPath userRef, snapshot := none }
  have current : DatabaseService.getCurrentUserRef app.defaults = some userRef := tracked.current
  have loads : (reloading { app with server := server } true).popToRoot.loads = app.loads ++ [load] := by
    simp [popToRoot, reloading, withLoad, current, load]
  refine ⟨by simpa [popToRoot] using current, well, ?_, ?_, ?_, ?_, ?_⟩
  · intro other member
    rw [loads] at member
    rcases List.mem_append.mp member with old | new
    · simpa [popToRoot] using tracked.loads other old
    · obtain rfl := List.mem_singleton.mp new
      simp [popToRoot, load]
  · obtain ⟨written, order, views, leaves⟩ := tracked.server
    have inside := mem_of_written order
    have extended := written_snoc views leaves
      (fun other member => isChange_of_operations other (inside other member))
      (.delete edit.uid) listed fun other member => apart other (inside other member)
    refine ⟨written ++ [.delete edit.uid], ?_, ?_⟩
    · rw [operations_snoc, made]
      simpa [popToRoot] using perm_insert order (.delete edit.uid)
    · simpa [popToRoot, performed.1] using extended
  · obtain ⟨applied, order, views⟩ := tracked.home
    refine ⟨applied, ?_, ?_⟩
    · rw [operations_snoc, made, reading_snoc, observed, ← List.append_assoc (reading history).lost]
      exact perm_extend order _
    · simpa [popToRoot, HomeViewController.views] using views
  · intro other member cards snapshot
    rw [loads] at member
    rcases List.mem_append.mp member with old | new
    · obtain ⟨read, order, shows⟩ := tracked.answered other old cards snapshot
      refine ⟨read, ?_, shows⟩
      rw [operations_snoc, made, reading_snoc, observed]
      exact perm_extend order _
    · -- The new load is not answered yet.
      obtain rfl := List.mem_singleton.mp new
      cases snapshot
  · intro _
    rw [loads]
    simp

/-- A delivered address brings an edit from the pending ones into the database. -/
private theorem tracked_uploadStored {task : Nat} {upload : Upload} {url : String} {server : Server}
    (tracked : Tracked userRef database history app)
    (tasks : (app.uploads.map Upload.task).Nodup)
    (found : app.uploads.find? (fun upload => upload.task = task) = some upload)
    (separate : Separate database userRef (operations history))
    (performed : app.server.Performed server (app.request (.uploadFinished task (.stored url))))
    (well : WellOpened
      { app with
        uploads := app.uploads.filter fun other => other.task ≠ task
        server := server }) :
    Tracked userRef database (history ++ [(app, .uploadFinished task (.stored url))])
      { app with
        uploads := app.uploads.filter fun other => other.task ≠ task
        server := server } := by
  have requested : app.request (.uploadFinished task (.stored url)) =
      some (updateRequest userRef upload.card url) := by
    simp [request, requestFor, tracked.current, found]
  rw [requested] at performed
  refine ⟨tracked.current, well, tracked.loads, ?_, ?_, ?_, ?_⟩
  · obtain ⟨written, order, views, leaves⟩ := tracked.server
    -- The edit of the ended upload comes first among the pending ones.
    have first := (perm_of_found tasks found).map Upload.edit
    have split := ((first.append_left written).symm.trans order)
    have inside := mem_of_written order
    have separated : (List.map CardOperation.uid
        (written ++ (upload.edit ::
          (app.uploads.filter fun other => other.task ≠ task).map Upload.edit))).Nodup :=
      (split.map CardOperation.uid).nodup_iff.mpr separate.1
    have apart : ∀ other ∈ written, other.uid ≠ upload.edit.uid := by
      intro other member same
      rw [List.map_append] at separated
      exact List.disjoint_of_nodup_append separated (List.mem_map_of_mem member)
        (by rw [same]; exact List.mem_map_of_mem List.mem_cons_self)
    have listed := separate.2 upload.edit (split.mem_iff.mp (by simp))
    have extended := written_snoc views leaves
      (fun other member => isChange_of_operations other (inside other member))
      (.edit upload.card url) listed apart
    refine ⟨written ++ [upload.edit], ?_, performed.1 ▸ extended⟩
    rw [List.append_assoc]
    simpa [operated] using split
  · simpa [operated, Reading.observe] using tracked.home
  · simpa [operated, Reading.observe] using tracked.answered
  · simpa [operated, Reading.observe] using tracked.awaiting

/-- Every step of the described kind keeps track of everything. -/
private theorem tracked_step {action : Action} (tracked : Tracked userRef database history app)
    (tasks : (app.uploads.map Upload.task).Nodup) (only : operating action = true)
    (separate : Separate database userRef (operations (history ++ [(app, action)])))
    (distinct : ∀ uid ∈ (database.views userRef).map Card.View.uid,
      platform.TellsApart ((database.views userRef).map Card.View.uid) uid)
    (stepped : Steps platform app action after) :
    Tracked userRef database (history ++ [(app, action)]) after := by
  -- One case for each kind of step that is allowed here.
  have performed := step_request stepped
  have well := tracked.well.step stepped
  rw [operations_snoc] at separate
  cases stepped with
  | snapshotRead asked => exact tracked_snapshotRead tracked well
  | loadDelivered found answered => exact tracked_loadDelivered tracked found answered well
  | searchChanged shown =>
    refine tracked_silent tracked rfl (by simp [Reading.observe, operated]) well rfl rfl ?_ ?_ rfl rfl
    · exact HomeViewController.views_of_kept (by simp) (by simp)
    · simp
  | addCardSegue shown =>
    exact tracked_silent tracked rfl (by simp [Reading.observe, operated]) well rfl rfl rfl rfl rfl rfl
  | cellSegue shown inside filled =>
    exact tracked_silent tracked rfl (by simp [Reading.observe, operated]) well rfl rfl rfl rfl rfl rfl
  | saveNotesClicked shown written =>
    simp only [operated, shown, Option.toList_some] at separate
    exact tracked_saveNotesClicked tracked (tracked.tellsApart distinct separate.last.1) shown
      separate performed well
  | editSegue shown =>
    exact tracked_silent tracked rfl (by simp [Reading.observe, operated]) well rfl rfl rfl rfl rfl rfl
  | @saveCard edit detailed server name barcode uuid image shown filled fresh removed =>
    have silent : app.request (.saveCard name barcode image uuid) = none := by
      simp [request, requestFor, tracked.current]
    rw [silent] at performed
    simp only [operated, shown, filled, if_true, Option.toList_some] at separate
    exact tracked_saveCard tracked (tracked.tellsApart distinct separate.last.1) shown filled
      performed.1 well
  | @saveCardAlert edit detailed name barcode uuid image shown missing =>
    have none : app.operated (.saveCard name barcode image uuid) = none := by
      simp only [operated, shown, missing, Bool.false_eq_true, if_false]
    exact tracked_silent tracked none (by simp [Reading.observe, none]) well rfl rfl rfl rfl rfl rfl
  | deleteCard shown removed deleted =>
    simp only [operated, shown, Option.toList_some] at separate
    refine tracked_deleteCard tracked shown separate ?_ well
    simpa [popToRoot] using performed
  | backToDetail shown =>
    exact tracked_silent tracked rfl (by simp [Reading.observe, operated]) well rfl rfl rfl rfl rfl rfl
  | backToRoot shown =>
    refine tracked_silent tracked rfl (by simp [Reading.observe, operated]) well rfl rfl ?_ ?_ rfl rfl
    · simp [popToRoot, HomeViewController.views]
    · simp [popToRoot]
  | uploadStored found named written =>
    exact tracked_uploadStored tracked tasks found separate.before performed well
  | homeViewDidLoad => cases only
  | scanned shown fresh stored => cases only
  | addNewCard shown filled fresh stored => cases only
  | addNewCardAlert shown missing => cases only
  | signedIn shown => cases only
  | logoutPressed shown => cases only
  | launch => cases only
  | uploadFailed found => cases only
  | downloadURLFailed found named => cases only

/-- In every run of operations on different cards everything is kept track of. -/
private theorem tracked_of_run
    (current : DatabaseService.getCurrentUserRef start.defaults = some userRef)
    (well : start.WellOpened) (quiet : start.Quiet) (agrees : start.Agrees userRef)
    (run : Run (App.next platform) start history final)
    (only : Run.Within (fun _ action => operating action = true) history)
    (separate : Separate start.server.database userRef (operations history))
    (distinct : ∀ uid ∈ (start.server.database.views userRef).map Card.View.uid,
      platform.TellsApart ((start.server.database.views userRef).map Card.View.uid) uid) :
    Tracked userRef start.server.database history final := by
  induction run with
  | nil =>
    -- At first no operation has been made.
    refine ⟨current, well, by simp [quiet.2], ⟨[], by simp [quiet.1, operations], rfl, .nil _ _⟩,
      ⟨[], by simp [reading, operations], agrees⟩, by simp [quiet.2], by simp [reading]⟩
  | snoc earlier taken ih =>
    obtain ⟨onlyBefore, last⟩ := Run.within_snoc.mp only
    have numbered := numbered_of_run earlier quiet.1
    have pending := uploads_sublist_starts earlier quiet.1
    have tasks := (pending.map Upload.task).nodup numbered.tasks
    have before := separate
    rw [operations_snoc] at before
    exact tracked_step (ih onlyBefore before.before) tasks last separate distinct (steps_of_next taken)

/-- If no listed uid equals another one, operations on different cards end with the home list that a
load would deliver, and with one and the same content of the database, exactly if none of those that
change a card is lost. -/
theorem operations_independent_iff {server : Server} {defaults : UserDefaults}
    {before : List (App × Action)}
    (reached : Run (App.next platform) (App.launched server defaults) before start)
    (current : DatabaseService.getCurrentUserRef start.defaults = some userRef)
    (quiet : start.Quiet) (agrees : start.Agrees userRef)
    (distinct : ∀ uid ∈ start.home.uids, platform.TellsApart start.home.uids uid)
    (run : Run (App.next platform) start history final)
    (only : Run.Within (fun _ action => operating action = true) history)
    (different : ((operations history).map CardOperation.uid).Nodup)
    (listed : ∀ operation ∈ operations history, operation.uid ∈ start.home.uids)
    (ended : final.Quiet) :
    (final.Agrees userRef ∧
      ∀ (other : App) (otherHistory : List (App × Action)),
        Run (App.next platform) start otherHistory other →
        Run.Within (fun _ action => operating action = true) otherHistory →
        (operations otherHistory).Perm (operations history) → other.Quiet →
        final.server.database.SameUpToURLs userRef other.server.database) ↔
      ∀ operation ∈ (reading history).lost,
        operation.perform (start.server.database.views userRef) =
          start.server.database.views userRef := by
  rw [HomeViewController.uids_eq_of_views agrees] at listed distinct
  have separate : Separate start.server.database userRef (operations history) := ⟨different, listed⟩
  have well := wellOpened_of_run reached
  have tracked := tracked_of_run current well quiet agrees run only separate distinct
  obtain ⟨written, order, views, leaves⟩ := tracked.server
  rw [ended.1, List.map_nil, List.append_nil] at order
  have nothing : (reading history).awaited = [] := by
    by_contra some
    exact tracked.awaiting some ended.2
  obtain ⟨applied, shown, home⟩ := tracked.home
  rw [nothing, List.append_nil] at shown
  have changes : CardOperation.Different (applied ++ (reading history).lost) :=
    CardOperation.Different.perm ⟨isChange_of_operations, different⟩ shown.symm
  have all : CardOperation.performAll written (start.server.database.views userRef) =
      CardOperation.performAll (reading history).lost
        (CardOperation.performAll applied (start.server.database.views userRef)) := by
    rw [← CardOperation.performAll_append]
    exact CardOperation.performAll_perm
      (CardOperation.Different.perm ⟨isChange_of_operations, different⟩ order.symm)
      (order.trans shown.symm) _
  have same : ∀ (other : App) (otherHistory : List (App × Action)),
      Run (App.next platform) start otherHistory other →
      Run.Within (fun _ action => operating action = true) otherHistory →
      (operations otherHistory).Perm (operations history) → other.Quiet →
      final.server.database.SameUpToURLs userRef other.server.database := by
    intro other otherHistory otherRun otherOnly again otherEnded
    have otherSeparate : Separate start.server.database userRef (operations otherHistory) :=
      ⟨(again.map CardOperation.uid).nodup_iff.mpr different,
        fun operation member => listed operation (again.mem_iff.mp member)⟩
    have otherTracked :=
      tracked_of_run current well quiet agrees otherRun otherOnly otherSeparate distinct
    obtain ⟨otherWritten, otherOrder, _, otherLeaves⟩ := otherTracked.server
    rw [otherEnded.1, List.map_nil, List.append_nil] at otherOrder
    -- Both servers have written the same operations in the end.
    exact leaves.sameUpToURLs otherLeaves (order.trans (again.symm.trans otherOrder.symm))
  have unaffected : ∀ operation ∈ (reading history).lost,
      (operation.perform (CardOperation.performAll applied (start.server.database.views userRef)) =
          CardOperation.performAll applied (start.server.database.views userRef) ↔
        operation.perform (start.server.database.views userRef) =
          start.server.database.views userRef) := by
    intro operation member
    refine CardOperation.perform_performAll_eq_self_iff (changes.1 operation (by simp [member]))
      changes.left.1 fun other inside => changes.apart inside member
  have lists : final.Agrees userRef ↔ ∀ operation ∈ (reading history).lost,
      operation.perform (start.server.database.views userRef) =
        start.server.database.views userRef := by
    rw [Agrees, home, views, all, Option.some.injEq, eq_comm,
      CardOperation.performAll_eq_self_iff changes.right]
    exact forall₂_congr unaffected
  exact ⟨fun holds => lists.mp holds.1, fun idle => ⟨lists.mpr idle, same⟩⟩

/-- The installation with two cards in the list and nothing pending. -/
def Scenario.twoListed : App :=
  (Scenario.reached Scenario.installed
    (Scenario.addFirstCard ++ Scenario.addition Scenario.secondId)).get (by decide +kernel)

/-- The first card is edited and saved. -/
def Scenario.editFirst : List Action :=
  [.cellSegue 0, .editSegue, .saveCard "Aldi" "456" (.photo 1) "U1", .back]

/-- The second card is deleted, and the list is read and delivered again. -/
def Scenario.deleteSecond : List Action :=
  [.cellSegue 1, .editSegue, .deleteCard, .snapshotRead 2, .loadDelivered 2]

/-- The upload of the edited card ends before the list is read again. -/
def Scenario.writtenFirst : List Action :=
  Scenario.editFirst ++
    .uploadFinished 1 (.stored (Scenario.urlOf "U1")) :: Scenario.deleteSecond

/-- The upload of the edited card ends after the list was read again. -/
def Scenario.readFirst : List Action :=
  Scenario.editFirst ++ Scenario.deleteSecond ++
    [.uploadFinished 1 (.stored (Scenario.urlOf "U1"))]

/-- A started process reaches the installation with two cards. -/
private theorem reached_twoListed :
    ∃ before, Run (App.next Platform.ascii)
      (App.launched Scenario.emptyServer
        { isLoggedIn := false, isTouchIDEnabled := false, user := none })
      before Scenario.twoListed := by
  -- The installation is defined as the end of this run.
  have ends : Scenario.reached Scenario.installed
      (Scenario.addFirstCard ++ Scenario.addition Scenario.secondId) = some Scenario.twoListed :=
    (Option.some_get (by decide +kernel)).symm
  exact ⟨_, Scenario.run_of_ends ends⟩

/-- The home screen and the server hold the same two cards. -/
private theorem agrees_twoListed :
    DatabaseService.getCurrentUserRef Scenario.twoListed.defaults = some "anna@mail_com" ∧
      Scenario.twoListed.Quiet ∧
      Scenario.twoListed.home.views =
        some (Scenario.twoListed.server.database.views "anna@mail_com") ∧
      ∀ uid ∈ Scenario.twoListed.home.uids,
        Platform.ascii.TellsApart Scenario.twoListed.home.uids uid := by
  decide +kernel

/-- An edit that is written before the list is read again is not lost. -/
theorem operations_independent_writtenFirst :
    ∃ final, Run (App.next Platform.ascii) Scenario.twoListed
        (Scenario.history Scenario.twoListed Scenario.writtenFirst) final ∧
      final.Agrees "anna@mail_com" := by
  -- The run is evaluated once: all steps are operations, and none is lost.
  have facts :
      let history := Scenario.history Scenario.twoListed Scenario.writtenFirst
      (Scenario.reached Scenario.twoListed Scenario.writtenFirst).any (fun final => final.Quiet) = true ∧
        Run.Within (fun _ action => operating action = true) history ∧
        ((operations history).map CardOperation.uid).Nodup ∧
        (∀ operation ∈ operations history, operation.uid ∈ Scenario.twoListed.home.uids) ∧
        (reading history).lost = [] := by
    decide +kernel
  obtain ⟨possible, only, different, listed, nothing⟩ := facts
  obtain ⟨final, run, ended⟩ :=
    Scenario.run_of_reached Scenario.twoListed Scenario.writtenFirst _ possible
  obtain ⟨before, reached⟩ := reached_twoListed
  obtain ⟨current, quiet, agrees, distinct⟩ := agrees_twoListed
  have independent := operations_independent_iff reached current quiet agrees distinct run only
    different listed (of_decide_eq_true ended)
  exact ⟨final, run, (independent.mpr (by simp [nothing])).1⟩

/-- An edit whose upload ends after the list was read again disappears from the home list. -/
theorem reload_loses_edit :
    ¬ ∀ (server : Server) (defaults : UserDefaults) (start final : App)
        (before history : List (App × Action)) (userRef : String),
        Run (App.next Platform.ascii) (App.launched server defaults) before start →
        DatabaseService.getCurrentUserRef start.defaults = some userRef →
        start.Quiet → start.Agrees userRef →
        Run (App.next Platform.ascii) start history final →
        Run.Within (fun _ action => operating action = true) history →
        ((operations history).map CardOperation.uid).Nodup →
        (∀ operation ∈ operations history, operation.uid ∈ start.home.uids) →
        final.Quiet →
        final.Agrees userRef ∧
          ∀ (other : App) (otherHistory : List (App × Action)),
            Run (App.next Platform.ascii) start otherHistory other →
            Run.Within (fun _ action => operating action = true) otherHistory →
            (operations otherHistory).Perm (operations history) → other.Quiet →
            final.server.database.SameUpToURLs userRef other.server.database := by
  -- The list is read before the upload of the edit ends, and delivered with the old name.
  intro always
  have facts :
      let history := Scenario.history Scenario.twoListed Scenario.readFirst
      (Scenario.reached Scenario.twoListed Scenario.readFirst).any (fun final => final.Quiet &&
          final.home.views ≠ some (final.server.database.views "anna@mail_com")) = true ∧
        Run.Within (fun _ action => operating action = true) history ∧
        ((operations history).map CardOperation.uid).Nodup ∧
        ∀ operation ∈ operations history, operation.uid ∈ Scenario.twoListed.home.uids := by
    decide +kernel
  obtain ⟨possible, only, different, listed⟩ := facts
  obtain ⟨final, run, ended⟩ :=
    Scenario.run_of_reached Scenario.twoListed Scenario.readFirst _ possible
  simp only [Bool.and_eq_true, decide_eq_true_eq] at ended
  obtain ⟨before, reached⟩ := reached_twoListed
  obtain ⟨current, quiet, agrees, _⟩ := agrees_twoListed
  have ends := (always _ _ _ final before _ "anna@mail_com" reached current quiet agrees run only
    different listed ended.1).1
  exact ended.2 ends

end App

end CardGuru
