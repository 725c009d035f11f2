import CardGuru.App.Reachable
import CardGuru.App.Scenario
import CardGuru.App.Uploads

/-! A save whose upload fails is all-or-nothing only if it had nothing to change. -/

namespace CardGuru

/-- The content of the stored picture that the record at a place points to. -/
def Server.picture (platform : Platform) (server : Server) (place : Path) : Option Data :=
  match Node.string? ((server.database.get place).child Key.absoluteURL) with
  | none => none
  | some url =>
    match platform.referenceForURL url with
    -- An address that does not name a place has no picture.
    | .error _ => none
    | .ok path => (server.objects.find? fun stored => stored.path = path).map StoredObject.data

/-- Deleting an object that a record does not point to keeps the picture of the record. -/
theorem Server.picture_delete {platform : Platform} {server : Server} {place : Path}
    {path : StoragePath}
    (other : ∀ url, Node.string? ((server.database.get place).child Key.absoluteURL) = some url →
      platform.referenceForURL url ≠ .ok path) :
    (server.delete path).picture platform place = server.picture platform place := by
  -- The object that the record points to is not among the deleted ones.
  unfold picture
  rw [database_delete]
  cases pointing : Node.string? ((server.database.get place).child Key.absoluteURL) with
  | none => rfl
  | some url =>
    cases named : platform.referenceForURL url with
    | error fault => simp only [named]
    | ok kept =>
      have apart : kept ≠ path := by
        rintro rfl
        exact other url pointing named
      simp only [named, delete, List.find?_filter]
      congr 2
      funext stored
      by_cases same : stored.path = kept
      · simp [same, apart]
      · simp [same]

/-- Storing an object that a record does not point to keeps the picture of the record. -/
theorem Server.picture_putData {platform : Platform} {server : Server} {place : Path}
    {object : StoredObject}
    (other : ∀ url, Node.string? ((server.database.get place).child Key.absoluteURL) = some url →
      platform.referenceForURL url ≠ .ok object.path) :
    (server.putData object).picture platform place = server.picture platform place := by
  -- Storing deletes what was at the path and appends the new object.
  rw [← picture_delete other]
  unfold picture
  rw [database_putData, database_delete]
  cases pointing : Node.string? ((server.database.get place).child Key.absoluteURL) with
  | none => rfl
  | some url =>
    cases named : platform.referenceForURL url with
    | error fault => simp only [named]
    | ok kept =>
      have apart : object.path ≠ kept := by
        intro same
        exact other url pointing (same ▸ named)
      simp [named, putData, delete, List.find?_append, apart]

/-- The upload ended without a delivered address. -/
def UploadResult.failed : UploadResult → Bool
  | .stored _ => false
  | .downloadURLFailed _ => true
  | .putDataFailed => true

namespace App

/-- The listed cards with a uid. -/
def listedCards (app : App) (uid : String) : List Card :=
  (app.home.loadedCards.getD []).filter fun card => card.uid = uid

/-- The detail screen, on top or below the edit screen. -/
def detailScreen (app : App) : Option DetailedViewController :=
  match app.screen with
  | .detailed detailed => some detailed
  -- The edit screen lies over the detail screen.
  | .edit _ detailed => some detailed
  | _ => none

/-- Record, stored picture, list and detail screen are as they were. -/
def Unchanged (platform : Platform) (before after : App) (place : Path) (uid : String) : Prop :=
  after.server.database.get place = before.server.database.get place ∧
    after.server.picture platform place = before.server.picture platform place ∧
    after.listedCards uid = before.listedCards uid ∧ after.detailScreen = before.detailScreen

/-- The record has this name and barcode and points to the stored bytes of this picture. -/
def Stored (platform : Platform) (app : App) (place : Path) (name barcode : String)
    (image : UIImage) : Prop :=
  Node.string? ((app.server.database.get place).child Key.name) = some name ∧
    Node.string? ((app.server.database.get place).child Key.barcode) = some barcode ∧
    app.server.picture platform place = some (DatabaseService.imageData image)

/-- Record, stored picture, list and detail screen all carry the edited values. -/
def CarriesEdit (platform : Platform) (app : App) (place : Path) (uid name barcode : String)
    (image : UIImage) : Prop :=
  app.Stored platform place name barcode image ∧
    (∀ card ∈ app.listedCards uid,
      card.name = name ∧ card.barcode = barcode ∧ card.image = some image) ∧
    ∃ detailed, app.detailScreen = some detailed ∧ detailed.nameLabel = name ∧
      detailed.barcodeLabel = barcode ∧ detailed.imageView = some image

/-- The record points to the picture that the edit screen asks to delete. -/
def PointsToDeleted (platform : Platform) (app : App) (place : Path)
    (edit : EditCardTableViewController) : Prop :=
  edit.absoluteURL.isEmpty = false ∧
    ∃ url path, Node.string? ((app.server.database.get place).child Key.absoluteURL) = some url ∧
      platform.referenceForURL url = .ok path ∧
      platform.referenceForURL edit.absoluteURL = .ok path

/-- The list and the detail screen show the values already, without a picture address. -/
def AlreadyShown (app : App) (detailed : DetailedViewController) (uid name barcode : String)
    (image : UIImage) : Prop :=
  (∀ card ∈ app.listedCards uid, card.name = name ∧ card.barcode = barcode ∧
      card.image = some image ∧ card.absoluteURL = none) ∧
    (detailed.name = name ∧ detailed.barcode = barcode ∧ detailed.image = image) ∧
    (detailed.nameLabel = name ∧ detailed.barcodeLabel = barcode ∧ detailed.imageView = some image)

variable {platform : Platform} {app middle after : App} {history : List (App × Action)}
  {edit : EditCardTableViewController} {detailed : DetailedViewController}
  {userRef name barcode uuid : String} {image : UIImage}

/-- Reporting an edited card changes all listed cards with its uid. -/
theorem listedCards_userDidUpdateData (platform : Platform) (home : HomeViewController)
    (updated : Card) :
    ((home.userDidUpdateData platform updated).loadedCards.getD []).filter
        (fun card => card.uid = updated.uid) =
      ((home.loadedCards.getD []).filter fun card => card.uid = updated.uid).map fun card =>
        { card with
          name := updated.name, barcode := updated.barcode, image := updated.image,
          absoluteURL := none } := by
  rw [HomeViewController.loadedCards_userDidUpdateData]
  cases home.loadedCards with
  | none => rfl
  | some cards =>
    -- The change keeps the uids, so it commutes with choosing them.
    rw [Option.map_some, Option.getD_some, Option.getD_some, List.filter_map]
    induction cards with
    | nil => rfl
    | cons card rest ih =>
      by_cases concerned : card.uid = updated.uid
      · -- The uid of the edited card equals itself.
        simpa [concerned, platform.equals_self] using ih
      · -- Another card keeps its uid, whether or not it is changed.
        by_cases equal : platform.equals card.uid updated.uid = true
        · simpa [concerned, equal] using ih
        · simpa [concerned, equal] using ih

/-- What a save with a failing upload leaves behind. -/
private theorem failed_edit_spec (well : app.WellOpened)
    (below : ∀ upload ∈ app.uploads, upload.task < app.nextTask)
    (shown : app.screen = .edit edit detailed)
    (current : DatabaseService.getCurrentUserRef app.defaults = some userRef)
    (filled : EditCardTableViewController.isEnteredDataValid name barcode = true)
    (saving : app.next platform (.saveCard name barcode image uuid) = some middle)
    {result : UploadResult} (failed : result.failed = true)
    (failing : middle.next platform (.uploadFinished app.nextTask result) = some after) :
    ∃ cleaned, edit.removeOldCard platform app.server = .ok cleaned ∧
      (after.server = cleaned ∨ ∃ url, after.server = cleaned.putData
        ⟨standardizedPath userRef ++ [uuid ++ ".png"], DatabaseService.imageData image, url⟩) ∧
      after.home = app.home.userDidUpdateData platform (Card.make edit.uid name barcode image) ∧
      after.screen = .detailed (detailed.userDidUpdateData (Card.make edit.uid name barcode image)) := by
  have opened := well.opened
  simp only [OpenedFromList, shown] at opened
  have stepped := steps_of_next saving
  cases stepped with
  | saveCardAlert shown' missing => simp [filled] at missing
  | @saveCard edit' detailed' cleaned _ _ _ _ shown' _ fresh removed =>
    obtain ⟨rfl, rfl⟩ : edit' = edit ∧ detailed' = detailed := by simpa [shown'] using shown
    -- The upload that fails is the one that the save has started.
    have found : ∀ upload,
        (app.saved platform detailed' cleaned (Card.make edit'.uid name barcode image)
          (DatabaseService.saveCardImage app.defaults image uuid)).uploads.find?
            (fun upload => upload.task = app.nextTask) = some upload →
        upload.path = standardizedPath userRef ++ [uuid ++ ".png"] ∧
          upload.data = DatabaseService.imageData image := by
      intro upload here
      have none_before : app.uploads.find? (fun upload => upload.task = app.nextTask) = none := by
        rw [List.find?_eq_none]
        intro other member
        have := below other member
        simp only [decide_eq_true_eq]
        omega
      simp only [saved, DatabaseService.saveCardImage, current, Option.map_some, Option.toList_some,
        List.map_cons, List.map_nil, List.find?_append, none_before, Option.none_or,
        List.find?_cons, decide_true] at here
      cases here
      exact ⟨rfl, rfl⟩
    have reported : detailed'.forwardedCard (Card.make edit'.uid name barcode image) =
        Card.make edit'.uid name barcode image := by
      rw [opened.2]
      rfl
    refine ⟨cleaned, removed, ?_⟩
    have ended := steps_of_next failing
    cases ended with
    | uploadFailed here =>
      refine ⟨.inl rfl, ?_, rfl⟩
      simp [saved, opened.1, reported]
    | downloadURLFailed here named =>
      rename_i url
      obtain ⟨path, data⟩ := found _ here
      refine ⟨.inr ⟨url, ?_⟩, ?_, rfl⟩
      · simp only [saved, path, data]
      · simp [saved, opened.1, reported]
    | uploadStored here named written => simp [UploadResult.failed] at failed

/-- Reporting an edited card leaves the listed cards as they are exactly if they show it already. -/
private theorem listed_unchanged_iff {home : HomeViewController} {card : Card} :
    ((home.userDidUpdateData platform card).loadedCards.getD []).filter
          (fun shown => shown.uid = card.uid) =
        (home.loadedCards.getD []).filter (fun shown => shown.uid = card.uid) ↔
      ∀ shown ∈ (home.loadedCards.getD []).filter (fun shown => shown.uid = card.uid),
        shown.name = card.name ∧ shown.barcode = card.barcode ∧ shown.image = card.image ∧
          shown.absoluteURL = none := by
  -- A map fixes a list exactly if it fixes every member.
  have fixed : ∀ (change : Card → Card) (cards : List Card),
      cards.map change = cards ↔ ∀ shown ∈ cards, change shown = shown := by
    intro change cards
    simpa using @List.map_inj_left _ _ cards change id
  rw [listedCards_userDidUpdateData, fixed]
  refine forall₂_congr fun shown _ => ?_
  obtain ⟨uid, name, barcode, image, absoluteURL, notesText⟩ := shown
  simp only [Card.mk.injEq, true_and, and_true]
  grind

/-- The detail screen stays as it is exactly if it shows the edited card already. -/
private theorem detail_unchanged_iff {detailed : DetailedViewController} {uid : String} :
    detailed.userDidUpdateData (Card.make uid name barcode image) = detailed ↔
      (detailed.name = name ∧ detailed.barcode = barcode ∧ detailed.image = image) ∧
        detailed.nameLabel = name ∧ detailed.barcodeLabel = barcode ∧
          detailed.imageView = some image := by
  -- The six changed fields are compared one by one.
  cases detailed
  simp only [DetailedViewController.userDidUpdateData, Card.make, Option.getD_some,
    DetailedViewController.mk.injEq]
  grind

/-- After a failed edit all four places agree, and no record points to a deleted picture, exactly
if the record did not point to the old picture and one side had nothing to change. -/
theorem failed_edit_all_or_nothing {server : Server} {defaults : UserDefaults}
    {result : UploadResult}
    (run : Run (App.next platform) (App.launched server defaults) history app)
    (shown : app.screen = .edit edit detailed)
    (current : DatabaseService.getCurrentUserRef app.defaults = some userRef)
    (filled : EditCardTableViewController.isEnteredDataValid name barcode = true)
    (unnamed : ∀ url, Node.string? ((app.server.database.get
        (DatabaseService.recordPath userRef edit.uid)).child Key.absoluteURL) = some url →
      platform.referenceForURL url ≠ .ok (standardizedPath userRef ++ [uuid ++ ".png"]))
    (saving : app.next platform (.saveCard name barcode image uuid) = some middle)
    (failed : result.failed = true)
    (failing : middle.next platform (.uploadFinished app.nextTask result) = some after) :
    ((Unchanged platform app after (DatabaseService.recordPath userRef edit.uid) edit.uid ∨
        CarriesEdit platform after (DatabaseService.recordPath userRef edit.uid) edit.uid name
          barcode image) ∧
      ¬ PointsToDeleted platform after (DatabaseService.recordPath userRef edit.uid) edit) ↔
    ¬ PointsToDeleted platform app (DatabaseService.recordPath userRef edit.uid) edit ∧
      (AlreadyShown app detailed edit.uid name barcode image ∨
        Stored platform app (DatabaseService.recordPath userRef edit.uid) name barcode image) := by
  have well := wellOpened_of_run run
  have numbered := numbered_of_run run rfl
  have below : ∀ upload ∈ app.uploads, upload.task < app.nextTask := fun upload pending =>
    numbered.below upload (numbered.pending upload pending)
  obtain ⟨cleaned, removed, reached, home, screen⟩ :=
    failed_edit_spec well below shown current filled saving failed failing
  generalize placed : DatabaseService.recordPath userRef edit.uid = place at unnamed ⊢
  -- Neither step writes to the database.
  have unwritten : cleaned.database = app.server.database := by
    unfold EditCardTableViewController.removeOldCard at removed
    split at removed
    · cases removed
      rfl
    · obtain ⟨path, _, rfl⟩ := DatabaseService.removeImageFromStorage_ok removed
      rfl
  have database : after.server.database = app.server.database := by
    rcases reached with same | ⟨url, same⟩
    · rw [same, unwritten]
    · rw [same, Server.database_putData, unwritten]
  have pointing : PointsToDeleted platform after place edit ↔
      PointsToDeleted platform app place edit := by
    simp only [PointsToDeleted, database]
  -- A picture that was not asked to be deleted is kept.
  have picture : ¬ PointsToDeleted platform app place edit →
      after.server.picture platform place = app.server.picture platform place := by
    intro spared
    have cleaning : cleaned.picture platform place = app.server.picture platform place := by
      unfold EditCardTableViewController.removeOldCard at removed
      split at removed
      · cases removed
        rfl
      · rename_i proper
        obtain ⟨path, old, rfl⟩ := DatabaseService.removeImageFromStorage_ok removed
        refine Server.picture_delete fun url points named => spared ⟨?_, url, path, points, named, old⟩
        simpa using proper
    rcases reached with same | ⟨url, same⟩
    · rw [same, cleaning]
    · rw [same, Server.picture_putData, cleaning]
      rw [unwritten]
      exact unnamed
  have detailBefore : app.detailScreen = some detailed := by simp [detailScreen, shown]
  have detailAfter : after.detailScreen =
      some (detailed.userDidUpdateData (Card.make edit.uid name barcode image)) := by
    simp [detailScreen, screen]
  have unchanged_iff : ¬ PointsToDeleted platform app place edit →
      (Unchanged platform app after place edit.uid ↔
        AlreadyShown app detailed edit.uid name barcode image) := by
    intro spared
    have listed := @listed_unchanged_iff platform app.home (Card.make edit.uid name barcode image)
    simp only [Unchanged, AlreadyShown, database, picture spared, true_and, detailBefore,
      detailAfter, Option.some.injEq, detail_unchanged_iff, listedCards, home]
    exact and_congr_left fun _ => listed
  have carries_iff : ¬ PointsToDeleted platform app place edit →
      (CarriesEdit platform after place edit.uid name barcode image ↔
        Stored platform app place name barcode image) := by
    intro spared
    have stored : Stored platform after place name barcode image ↔
        Stored platform app place name barcode image := by
      simp only [Stored, database, picture spared]
    refine ⟨fun carries => stored.mp carries.1, fun before => ⟨stored.mpr before, ?_, _, detailAfter,
      rfl, rfl, rfl⟩⟩
    intro card member
    have updated := listedCards_userDidUpdateData platform app.home (Card.make edit.uid name barcode image)
    rw [listedCards, home] at member
    obtain ⟨card, _, rfl⟩ := List.mem_map.mp (updated ▸ member)
    exact ⟨rfl, rfl, rfl⟩
  rw [pointing]
  constructor
  · rintro ⟨agree, spared⟩
    exact ⟨spared, agree.imp (unchanged_iff spared).mp (carries_iff spared).mp⟩
  · rintro ⟨spared, before⟩
    exact ⟨before.imp (unchanged_iff spared).mpr (carries_iff spared).mpr, spared⟩

/-- The only card of the installation is opened for editing. -/
def Scenario.editing : App :=
  (Scenario.reached Scenario.installed
    (Scenario.addFirstCard ++ [.cellSegue 0, .editSegue])).get (by decide +kernel)

/-- The detail screen of the card below the edit screen. -/
def Scenario.opened : DetailedViewController :=
  (DetailedViewController.setDetailedCard Scenario.firstId.text "Lidl" "123" .shop "" none
    true).viewDidLoad

/-- A failed save that changes nothing on the screens leaves everything as it was. -/
theorem failed_edit_all_or_nothing_sameValues :
    ∃ middle after,
      Scenario.editing.next Platform.ascii (.saveCard "Lidl" "123" .shop "U1") = some middle ∧
      middle.next Platform.ascii (.uploadFinished Scenario.editing.nextTask .putDataFailed) =
        some after ∧
      (Unchanged Platform.ascii Scenario.editing after
          (DatabaseService.recordPath "anna@mail_com" Scenario.firstId.text) Scenario.firstId.text ∨
        CarriesEdit Platform.ascii after
          (DatabaseService.recordPath "anna@mail_com" Scenario.firstId.text) Scenario.firstId.text
          "Lidl" "123" .shop) := by
  have run : Run (App.next Platform.ascii) Scenario.installed (Scenario.history Scenario.installed
      (Scenario.addFirstCard ++ [.cellSegue 0, .editSegue])) Scenario.editing :=
    Run.of_exec (Option.some_get _).symm
  -- The record has no picture yet.
  have facts :
      ((Scenario.editing.next Platform.ascii (.saveCard "Lidl" "123" .shop "U1")).bind
        fun middle => middle.next Platform.ascii
          (.uploadFinished Scenario.editing.nextTask .putDataFailed)).isSome = true ∧
      Scenario.editing.screen = .edit Scenario.opened.edit Scenario.opened ∧
      DatabaseService.getCurrentUserRef Scenario.editing.defaults = some "anna@mail_com" ∧
      Node.string? ((Scenario.editing.server.database.get
        (DatabaseService.recordPath "anna@mail_com" Scenario.firstId.text)).child
          Key.absoluteURL) = none := by
    decide +kernel
  obtain ⟨possible, shown, current, pictureless⟩ := facts
  obtain ⟨after, both⟩ := Option.isSome_iff_exists.mp possible
  obtain ⟨middle, saving, failing⟩ := Option.bind_eq_some_iff.mp both
  have spared : ¬ PointsToDeleted Platform.ascii Scenario.editing
      (DatabaseService.recordPath "anna@mail_com" Scenario.firstId.text) Scenario.opened.edit := by
    rintro ⟨_, url, _, points, _⟩
    rw [pictureless] at points
    cases points
  have same : AlreadyShown Scenario.editing Scenario.opened Scenario.firstId.text "Lidl" "123"
      .shop := by
    refine ⟨by decide +kernel, by decide, by decide⟩
  refine ⟨middle, after, saving, failing, ?_⟩
  refine ((failed_edit_all_or_nothing run shown current (by decide) ?_ saving rfl
    failing).mpr ⟨spared, .inl same⟩).1
  intro url points
  cases pictureless.symm.trans points

/-- A card whose picture was stored is listed by a new process and opened for editing. -/
def Scenario.editPictured : List Action :=
  Scenario.addFirstCard ++
    [.cellSegue 0, .editSegue, .saveCard "Aldi" "456" (.photo 1) "U1",
      .uploadFinished 1 (.stored (Scenario.urlOf "U1")), .launch, .homeViewDidLoad, .snapshotRead 2,
      .loadDelivered 2, .cellSegue 0, .editSegue]

/-- A failed save of a card with a stored picture leaves the record with the old name, pointing to
the picture that was asked to be deleted. -/
theorem failed_edit_deletes_picture :
    ¬ ∀ (history : List (App × Action)) (app middle after : App)
        (edit : EditCardTableViewController) (detailed : DetailedViewController)
        (userRef name barcode uuid : String) (image : UIImage) (result : UploadResult),
        Run (App.next Platform.ascii) Scenario.installed history app →
        app.screen = .edit edit detailed →
        DatabaseService.getCurrentUserRef app.defaults = some userRef →
        app.next Platform.ascii (.saveCard name barcode image uuid) = some middle →
        result.failed = true →
        middle.next Platform.ascii (.uploadFinished app.nextTask result) = some after →
        (Unchanged Platform.ascii app after (DatabaseService.recordPath userRef edit.uid) edit.uid ∨
          CarriesEdit Platform.ascii after (DatabaseService.recordPath userRef edit.uid) edit.uid
            name barcode image) ∧
        ¬ PointsToDeleted Platform.ascii after (DatabaseService.recordPath userRef edit.uid)
          edit := by
  intro always
  let place := DatabaseService.recordPath "anna@mail_com" Scenario.firstId.text
  let edit : EditCardTableViewController :=
    { uid := Scenario.firstId.text, name := "Aldi", barcode := "456", image := .shop
      absoluteURL := Scenario.urlOf "U1" }
  -- The upload of the second save fails, and the record still points to the first picture.
  obtain ⟨app, run, facts⟩ := Scenario.run_of_reached Scenario.installed Scenario.editPictured
    (fun app =>
      app.screen = .edit edit
        (DetailedViewController.setDetailedCard edit.uid "Aldi" "456" .shop edit.absoluteURL none
          true).viewDidLoad &&
      DatabaseService.getCurrentUserRef app.defaults = some "anna@mail_com" &&
      ((app.next Platform.ascii (.saveCard "Rewe" "789" (.photo 2) "U2")).bind fun middle =>
        middle.next Platform.ascii (.uploadFinished app.nextTask .putDataFailed)).any fun after =>
          Node.string? ((after.server.database.get place).child Key.absoluteURL) =
            some (Scenario.urlOf "U1")) (by decide +kernel)
  simp only [Bool.and_eq_true, decide_eq_true_eq, Option.any_eq_true] at facts
  obtain ⟨⟨shown, current⟩, after, both, points⟩ := facts
  obtain ⟨middle, saving, failing⟩ := Option.bind_eq_some_iff.mp both
  have spared := (always _ _ _ _ _ _ _ _ _ _ _ _ run shown current saving rfl failing).2
  have refers : Platform.ascii.referenceForURL (Scenario.urlOf "U1") =
      .ok ["anna@mail_com", "U1.png"] := by decide +kernel
  have own : edit.absoluteURL = Scenario.urlOf "U1" := rfl
  exact spared ⟨by decide, Scenario.urlOf "U1", ["anna@mail_com", "U1.png"], points, refers,
    (congrArg Platform.ascii.referenceForURL own).trans refers⟩

end App

end CardGuru
