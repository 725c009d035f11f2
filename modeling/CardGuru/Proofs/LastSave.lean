import CardGuru.App.Reachable
import CardGuru.App.Scenario

/-! Among several saves of one card the record keeps the one whose upload ends last, while the home
list keeps the one that was made last. -/

namespace CardGuru

/-- The record at a place holds this name, barcode and picture address. -/
def Database.Holds (database : Database) (place : Path) (name barcode url : String) : Prop :=
  Node.string? ((database.get place).child Key.name) = some name ∧
    Node.string? ((database.get place).child Key.barcode) = some barcode ∧
    Node.string? ((database.get place).child Key.absoluteURL) = some url

/-- An update leaves the record with the values it lists. -/
theorem Database.holds_updateRequest (database : Database) (userRef : String) (card : Card)
    (url : String) :
    (database.apply (updateRequest userRef card url)).Holds
      (DatabaseService.recordPath userRef card.uid) card.name card.barcode url := by
  -- The three fields are different children of the record.
  have written := database.get_apply_self (updateRequest userRef card url)
  have barcodeName : Key.barcode ≠ Key.name := by decide
  have urlName : Key.absoluteURL ≠ Key.name := by decide
  have urlBarcode : Key.absoluteURL ≠ Key.barcode := by decide
  simp only [updateRequest, DatabaseWrite.path, DatabaseWrite.replacement] at written
  simp only [Database.Holds, updateRequest, written, Node.merge_cons, Node.merge_nil]
  refine ⟨?_, ?_, ?_⟩
  · rw [KeyTree.child_setChild_ne _ urlName.symm, KeyTree.child_setChild_ne _ barcodeName.symm,
      KeyTree.child_setChild_self]
    rfl
  · rw [KeyTree.child_setChild_ne _ urlBarcode.symm, KeyTree.child_setChild_self]
    rfl
  · rw [KeyTree.child_setChild_self]
    rfl

namespace App

variable {platform : Platform} {app after start final : App} {history : List (App × Action)}
  {userRef uid : String} {refs : List CardRef}

/-- Only saves of one card, delivered addresses, and moves between the screens. -/
def onlySaves (uid : String) (app : App) : Action → Bool
  | .saveCard _ _ _ _ =>
    match app.screen with
    | .edit edit _ => edit.uid = uid
    | _ => false
  | .uploadFinished _ (.stored _) => true
  | .searchChanged _ _ | .addCardSegue | .cellSegue _ | .editSegue | .back => true
  | _ => false

/-- Every listed card with this uid shows this name and barcode. -/
def ListShows (app : App) (uid name barcode : String) : Prop :=
  ∀ refs, app.home.cards = some refs → ∀ ref ∈ refs, (app.home.heap ref).uid = uid →
    (app.home.heap ref).name = name ∧ (app.home.heap ref).barcode = barcode

/-- What holds while one card is saved again and again. -/
structure Saving (userRef uid : String) (history : List (App × Action)) (app : App) : Prop where
  current : DatabaseService.getCurrentUserRef app.defaults = some userRef
  loaded : app.home.cards.isSome = true
  opened : app.OpenedFromList
  /-- All saves are saves of the card. -/
  ofCard : ∀ upload ∈ starts history, upload.card.uid = uid
  /-- The record holds the save whose upload ended last. -/
  record : ∀ task url, (completions history).getLast? = some (task, url) →
    ∀ upload ∈ starts history, upload.task = task →
      app.server.database.Holds (DatabaseService.recordPath userRef uid) upload.card.name
        upload.card.barcode url
  /-- The list shows the save that was made last. -/
  shown : ∀ upload, (starts history).getLast? = some upload →
    app.ListShows uid upload.card.name upload.card.barcode

private theorem saving_silent {action : Action} (saving : Saving userRef uid history app)
    (starting : app.startedUpload action = none) (completing : completedUpload action = none)
    (defaults : after.defaults = app.defaults)
    (database : after.server.database = app.server.database)
    (cards : after.home.cards = app.home.cards) (heap : after.home.heap = app.home.heap)
    (opened : after.OpenedFromList) :
    Saving userRef uid (history ++ [(app, action)]) after := by
  -- Nothing that the card is compared by has changed.
  refine ⟨defaults ▸ saving.current, cards ▸ saving.loaded, opened, ?_, ?_, ?_⟩
  · simpa [starting] using saving.ofCard
  · simpa [starting, completing, database] using saving.record
  · simpa [starting, ListShows, cards, heap] using saving.shown

private theorem saving_step {action : Action} (saving : Saving userRef uid history app)
    (numbered : Numbered platform history app) (only : onlySaves uid app action = true)
    (stepped : Steps platform app action after) :
    Saving userRef uid (history ++ [(app, action)]) after := by
  cases stepped with
  | searchChanged shown =>
    refine saving_silent saving rfl rfl rfl rfl ?_ ?_ ?_
    · simp
    · simp
    · simp [OpenedFromList, shown]
  | addCardSegue shown => exact saving_silent saving rfl rfl rfl rfl rfl rfl trivial
  | cellSegue shown inside filled =>
    obtain ⟨refs, listed⟩ := Option.isSome_iff_exists.mp saving.loaded
    have reporting := HomeViewController.hasDelegates_of_detailedCard
      (HomeViewController.rowsLoaded_of_loaded listed) inside filled
    exact saving_silent saving rfl rfl rfl rfl rfl rfl reporting
  | editSegue shown =>
    refine saving_silent saving rfl rfl rfl rfl rfl rfl ⟨?_, rfl⟩
    simpa [OpenedFromList, shown] using saving.opened
  | backToDetail shown =>
    refine saving_silent saving rfl rfl rfl rfl rfl rfl ?_
    have reporting := saving.opened
    simp only [OpenedFromList, shown] at reporting
    exact reporting.1
  | backToRoot shown =>
    refine saving_silent saving rfl rfl rfl rfl ?_ ?_ trivial
    · simp [popToRoot]
    · simp [popToRoot]
  | saveCardAlert shown missing =>
    exact saving_silent saving (by simp [startedUpload, shown, missing]) rfl rfl rfl rfl rfl
      saving.opened
  | @saveCard edit detailed server name barcode uuid image shown filled fresh removed =>
    -- The list takes the new name and barcode at once; the record waits for the upload.
    obtain ⟨listed, loaded⟩ := Option.isSome_iff_exists.mp saving.loaded
    have reporting := saving.opened
    simp only [OpenedFromList, shown] at reporting
    have edited : edit.uid = uid := by simpa [onlySaves, shown] using only
    have started : app.startedUpload (.saveCard name barcode image uuid) =
        some { task := app.nextTask
               path := standardizedPath userRef ++ [uuid ++ ".png"]
               data := DatabaseService.imageData image
               card := Card.make edit.uid name barcode image } := by
      simp [startedUpload, shown, filled, DatabaseService.saveCardImage, saving.current]
    have unwritten : server.database = app.server.database := by
      unfold EditCardTableViewController.removeOldCard at removed
      split at removed
      · cases removed
        rfl
      · obtain ⟨path, _, rfl⟩ := DatabaseService.removeImageFromStorage_ok removed
        rfl
    have mutated : (app.saved platform detailed server (Card.make edit.uid name barcode image)
        (DatabaseService.saveCardImage app.defaults image uuid)).home =
          app.home.userDidUpdateData platform
            (detailed.forwardedCard (Card.make edit.uid name barcode image)) := by
      simp [saved, reporting.1]
    refine ⟨saving.current, ?_, reporting.1, ?_, ?_, ?_⟩
    · rw [mutated, HomeViewController.userDidUpdateData_loaded loaded]
      exact saving.loaded
    · intro upload member
      rw [starts_snoc, started] at member
      rcases List.mem_append.mp member with old | new
      · exact saving.ofCard upload old
      · obtain rfl := List.mem_singleton.mp new
        exact edited
    · intro task url ended upload member numberedTask
      rw [starts_snoc, started] at member
      have before : (completions history).getLast? = some (task, url) := by
        simpa [completedUpload] using ended
      rcases List.mem_append.mp member with old | new
      · simpa [saved, unwritten] using saving.record task url before upload old numberedTask
      · -- A task that has ended was started before this save.
        obtain rfl := List.mem_singleton.mp new
        obtain ⟨earlier, inside, sameTask, _⟩ :=
          numbered.delivered task url (List.mem_of_getLast? before)
        have := numbered.below earlier inside
        simp only at numberedTask
        omega
    · intro upload latest
      rw [starts_snoc, started] at latest
      obtain rfl := Option.some.inj (List.getLast?_concat.symm.trans latest)
      intro refs here ref member named
      rw [mutated, HomeViewController.userDidUpdateData_loaded loaded] at here named ⊢
      have listedHere : listed = refs := by simpa [HomeViewController.mutate, loaded] using here
      subst listedHere
      -- The uid of the saved card equals itself.
      by_cases concerned : platform.equals (app.home.heap ref).uid detailed.uid = true
      · simp [HomeViewController.mutate, DetailedViewController.forwardedCard, Card.make, member,
          concerned]
      · have other : (app.home.heap ref).uid = uid := by
          simpa [HomeViewController.mutate, DetailedViewController.forwardedCard, Card.make, member,
            concerned] using named
        have sameUid : edit.uid = detailed.uid := congrArg EditCardTableViewController.uid reporting.2
        rw [other.trans (edited.symm.trans sameUid)] at concerned
        exact absurd (platform.equals_self _) concerned
  | @uploadStored task upload url server found named written =>
    -- The record now holds the card of the upload that has just ended.
    have pending := numbered.pending upload (List.mem_of_find?_eq_some found)
    have numberedTask : upload.task = task := by simpa using List.find?_some found
    have card := saving.ofCard upload pending
    have requested : app.request (.uploadFinished task (.stored url)) =
        some (updateRequest userRef upload.card url) := by
      simp [request, requestFor, saving.current, found]
    have performed := step_request (Steps.uploadStored found named written)
    rw [requested] at performed
    refine ⟨saving.current, saving.loaded, saving.opened, ?_, ?_, ?_⟩
    · simpa [startedUpload] using saving.ofCard
    · intro lastTask lastUrl ended other member sameTask
      have same : (task, url) = (lastTask, lastUrl) := by
        simpa [completedUpload] using ended
      cases same
      have begun : other ∈ starts history := by simpa [startedUpload] using member
      have identical : other = upload :=
        numbered.eq_of_task begun pending (sameTask.trans numberedTask.symm)
      subst identical
      rw [performed.1, ← card]
      exact Database.holds_updateRequest _ _ _ _
    · simpa [startedUpload, ListShows] using saving.shown
  | _ => simp [onlySaves] at only

/-- While one card is saved again and again, the record and the list are as described. -/
theorem saving_of_run (run : Run (App.next platform) start history final)
    (idle : start.uploads = []) (initially : Saving userRef uid [] start)
    (only : Run.Within (fun app action => onlySaves uid app action = true) history) :
    Saving userRef uid history final := by
  -- Each step extends the description by what it does.
  induction run with
  | nil => exact initially
  | snoc earlier taken ih =>
    obtain ⟨before, last⟩ := Run.within_snoc.mp only
    exact saving_step (ih before) (numbered_of_run earlier idle) last (steps_of_next taken)

/-- After several saves of one card the record holds the last one, as the list does, exactly when
its upload was the last to end. -/
theorem last_save_wins_iff (run : Run (App.next platform) start history final)
    (idle : start.uploads = []) (atHome : start.screen = .home)
    (loaded : start.home.cards.isSome = true)
    (current : DatabaseService.getCurrentUserRef start.defaults = some userRef)
    (only : Run.Within (fun app action => onlySaves uid app action = true) history) {save : Upload}
    (latest : (starts history).getLast? = some save) :
    ((∃ url, (save.task, url) ∈ completions history ∧
        final.server.database.Holds (DatabaseService.recordPath userRef uid) save.card.name
          save.card.barcode url) ∧
      final.ListShows uid save.card.name save.card.barcode) ↔
      (completions history).getLast?.map Prod.fst = some save.task := by
  have numbered := numbered_of_run run idle
  have initially : Saving userRef uid [] start :=
    ⟨current, loaded, by simp [OpenedFromList, atHome], by simp [starts], by simp [completions],
      by simp [starts]⟩
  have saving := saving_of_run run idle initially only
  have begun := List.mem_of_getLast? latest
  constructor
  · -- The address in the record tells which upload ended last.
    rintro ⟨⟨url, delivered, holds⟩, _⟩
    cases ended : (completions history).getLast? with
    | none =>
      rw [List.getLast?_eq_none_iff.mp ended] at delivered
      simp at delivered
    | some completion =>
      obtain ⟨task, lastUrl⟩ := completion
      obtain ⟨upload, started, named, path⟩ :=
        numbered.delivered task lastUrl (List.mem_of_getLast? ended)
      have written := saving.record task lastUrl ended upload started named
      have sameUrl : lastUrl = url := by
        have both := written.2.2.symm.trans holds.2.2
        exact Option.some.inj both
      obtain ⟨own, ownStarted, ownNamed, ownPath⟩ := numbered.delivered save.task url delivered
      have ownSave := numbered.eq_of_task ownStarted begun ownNamed
      subst ownSave
      subst sameUrl
      have samePath : own.path = upload.path := by
        rw [path] at ownPath
        exact (Except.ok.inj ownPath).symm
      have same := numbered.eq_of_path ownStarted started samePath
      simp [same, named]
  · intro last
    obtain ⟨⟨task, url⟩, ended, sameTask⟩ := Option.map_eq_some_iff.mp last
    have numberedTask : task = save.task := sameTask
    subst numberedTask
    exact ⟨⟨url, List.mem_of_getLast? ended, saving.record save.task url ended save begun rfl⟩,
      saving.shown save latest⟩

/-- Two saves of the listed card. -/
def Scenario.twoSaves : List Action :=
  [.cellSegue 0, .editSegue, .saveCard "Aldi" "456" (.photo 1) "U1", .editSegue,
    .saveCard "Rewe" "789" (.photo 2) "U2"]

/-- The uploads of the two saves end in the order of the saves. -/
def Scenario.inOrder : List Action :=
  Scenario.twoSaves ++
    [.uploadFinished 1 (.stored (Scenario.urlOf "U1")),
      .uploadFinished 2 (.stored (Scenario.urlOf "U2"))]

/-- The uploads of the two saves end in the opposite order. -/
def Scenario.outOfOrder : List Action :=
  Scenario.twoSaves ++
    [.uploadFinished 2 (.stored (Scenario.urlOf "U2")),
      .uploadFinished 1 (.stored (Scenario.urlOf "U1"))]

/-- The installation with one card shows its list and waits for nothing. -/
private theorem listed_facts : Scenario.listed.uploads = [] ∧ Scenario.listed.screen = .home ∧
    Scenario.listed.home.cards.isSome = true ∧
    DatabaseService.getCurrentUserRef Scenario.listed.defaults = some "anna@mail_com" := by
  decide +kernel

/-- With the uploads ending in order the record holds the second save. -/
theorem last_save_wins_inOrder :
    ∃ final, Run (App.next Platform.ascii) Scenario.listed
        (Scenario.history Scenario.listed Scenario.inOrder) final ∧
      (∃ url, final.server.database.Holds
        (DatabaseService.recordPath "anna@mail_com" Scenario.firstId.text) "Rewe" "789" url) ∧
      final.ListShows Scenario.firstId.text "Rewe" "789" := by
  -- The run is evaluated once for all that is asked of it.
  have facts :
      let history := Scenario.history Scenario.listed Scenario.inOrder
      (Scenario.reached Scenario.listed Scenario.inOrder).any (fun _ => true) = true ∧
        (starts history).getLast? =
          some { task := 2, path := ["anna@mail_com", "U2.png"], data := .png (.scaled (.photo 2)),
                 card := Card.make Scenario.firstId.text "Rewe" "789" (.photo 2) } ∧
        Run.Within (fun app action => onlySaves Scenario.firstId.text app action = true) history ∧
        (completions history).getLast?.map Prod.fst = some 2 := by
    decide +kernel
  obtain ⟨possible, latest, only, last⟩ := facts
  obtain ⟨final, run, _⟩ :=
    Scenario.run_of_reached Scenario.listed Scenario.inOrder (fun _ => true) possible
  obtain ⟨idle, atHome, loaded, current⟩ := listed_facts
  obtain ⟨⟨url, _, holds⟩, shown⟩ :=
    (last_save_wins_iff run idle atHome loaded current only latest).mpr last
  exact ⟨final, run, ⟨url, holds⟩, shown⟩

/-- With the uploads ending in the opposite order the record holds the first save. -/
theorem earlier_save_wins :
    ¬ ∀ (start final : App) (history : List (App × Action)) (userRef uid : String) (save : Upload),
        Run (App.next Platform.ascii) start history final → start.uploads = [] →
        start.screen = .home → start.home.cards.isSome = true →
        DatabaseService.getCurrentUserRef start.defaults = some userRef →
        Run.Within (fun app action => onlySaves uid app action = true) history →
        (starts history).getLast? = some save →
        final.uploads = [] →
        ∃ url, (save.task, url) ∈ completions history ∧
          final.server.database.Holds (DatabaseService.recordPath userRef uid) save.card.name
            save.card.barcode url := by
  intro always
  let place := DatabaseService.recordPath "anna@mail_com" Scenario.firstId.text
  have facts :
      let history := Scenario.history Scenario.listed Scenario.outOfOrder
      (Scenario.reached Scenario.listed Scenario.outOfOrder).any (fun final => final.uploads = [] &&
          Node.string? ((final.server.database.get place).child Key.name) = some "Aldi") = true ∧
        (starts history).getLast? =
          some { task := 2, path := ["anna@mail_com", "U2.png"], data := .png (.scaled (.photo 2)),
                 card := Card.make Scenario.firstId.text "Rewe" "789" (.photo 2) } ∧
        Run.Within (fun app action => onlySaves Scenario.firstId.text app action = true) history := by
    decide +kernel
  obtain ⟨possible, latest, only⟩ := facts
  obtain ⟨final, run, ended⟩ :=
    Scenario.run_of_reached Scenario.listed Scenario.outOfOrder _ possible
  simp only [Bool.and_eq_true, decide_eq_true_eq] at ended
  obtain ⟨idle, atHome, loaded, current⟩ := listed_facts
  obtain ⟨url, _, holds⟩ := always _ final _ "anna@mail_com" Scenario.firstId.text _ run idle atHome
    loaded current only latest ended.1
  have second := holds.1
  rw [ended.2] at second
  exact absurd second (by decide)

end App

end CardGuru
