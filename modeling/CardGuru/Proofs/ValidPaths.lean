import CardGuru.App.Delegate
import CardGuru.App.Objects
import CardGuru.Proofs.LastCard
import CardGuru.Services.PathValidation

/-! The database refuses a path exactly if the user has an e-mail address that names no folder, or
if the card concerned was opened from the stored one and has no uid. -/

namespace CardGuru

/-- What a step does with the reference to the cards of the user. -/
inductive CardsUse where
  /-- The cards are read, or a new one is added. -/
  | folder
  /-- The record of a card is written or removed. -/
  | record (uid : String)
deriving DecidableEq

/-- The e-mail address of the user names no folder, or the card has no uid. -/
def CardsUse.Refused (defaults : UserDefaults) (use : CardsUse) : Prop :=
  ∃ user, defaults.fetchUser = some user ∧ (¬ IsNamed user.email ∨ use = .record "")

instance {defaults : UserDefaults} {use : CardsUse} : Decidable (use.Refused defaults) :=
  inferInstanceAs (Decidable (∃ user, user ∈ defaults.fetchUser ∧ _))

/-- A conditional step raises under its condition. -/
theorem raises_offered {α : Type} {condition : Prop} [Decidable condition] {step : Except Fault α} :
    Raises (offered condition step) ↔ condition ∧ Raises step := by
  -- A step that is not offered fails with a fault of its own.
  unfold offered
  split
  · rename_i holds
    simp [holds]
  · rename_i fails
    simp [Raises, fails]

/-- Exactly a user without a folder refuses the folder. -/
theorem refused_folder {defaults : UserDefaults} :
    CardsUse.folder.Refused defaults ↔ DatabaseService.Unnamed defaults := by
  simp [CardsUse.Refused, DatabaseService.Unnamed]

/-- The uid of a card: a key of the database, or nothing. -/
def IsUid (uid : String) : Prop :=
  App.IsKey uid ∨ uid = ""

/-- A write on the record of a card is refused as described. -/
theorem raises_record {defaults : UserDefaults} {server : Server} {uid : String}
    {request : Path → DatabaseWrite} (named : IsUid uid) :
    Raises (DatabaseService.onRecord defaults server uid request) ↔
      (CardsUse.record uid).Refused defaults := by
  -- Of all uids only the empty one is refused as a path string.
  have invalid : isValidPathString uid = false ↔ uid = "" := by
    rcases named with ⟨key, rfl⟩ | rfl
    · have nonempty : key.text ≠ "" := fun empty => key.text_spec.1 (by simp [empty])
      simp [Key.isValidPathString_text, nonempty]
    · simp [isValidPathString]
  rw [DatabaseService.raises_onRecord, invalid, CardsUse.Refused, DatabaseService.getCurrentUserRef]
  cases defaults.fetchUser with
  | none => simp
  | some user => simp [← isValidPathString_userKey]

namespace App

variable {platform : Platform} {app after : App}

/-- What an action does with the cards of the user, if it gets that far. -/
def cardsUse (platform : Platform) (app : App) : Action → Option CardsUse
  | .homeViewDidLoad => some .folder
  | .signedIn _ => if app.screen = .entry then some .folder else none
  | .scanned _ _ autoId =>
    match app.screen with
    | .scanner _ => if app.isFreshId autoId = true then some .folder else none
    | _ => none
  | .addNewCard name barcode autoId =>
    match app.screen with
    | .scanner _ =>
      if name.isEmpty || barcode.isEmpty then none
      else if app.isFreshId autoId = true then some .folder else none
    | _ => none
  | .saveNotesClicked _ =>
    match app.screen with
    | .detailed detailed => some (.record detailed.uid)
    | _ => none
  | .deleteCard =>
    match app.screen with
    | .edit edit _ =>
      -- The stored picture is removed first, and its address may be refused by the bucket.
      match edit.removeOldCard platform app.server with
      | .ok _ => some (.record edit.uid)
      | .error _ => none
    | _ => none
  | .uploadFinished task (.stored url) =>
    match app.uploads.find? fun upload => upload.task = task with
    | some upload =>
      if platform.referenceForURL url = .ok upload.path then some (.record upload.card.uid) else none
    | none => none
  | _ => none

/-- The settings under which an action uses the cards. -/
def settings (app : App) : Action → UserDefaults
  | .signedIn user => (app.defaults.saveLoggedState true).save user
  | _ => app.defaults

/-- An action uses the cards in a way that is refused. -/
def Endangered (platform : Platform) (app : App) (action : Action) : Prop :=
  ∃ use, app.cardsUse platform action = some use ∧ use.Refused (app.settings action)

/-- The cards on the screens, in answers and in pending uploads have a uid, or an empty one. -/
structure Uids (app : App) : Prop where
  objects : app.home.Objects fun card => IsUid card.uid
  read : ∀ load ∈ app.loads, ∀ cards, load.snapshot = some cards → ∀ card ∈ cards, IsUid card.uid
  detailed : ∀ detailed, app.screen = .detailed detailed → IsUid detailed.uid
  edit : ∀ edit detailed, app.screen = .edit edit detailed → IsUid edit.uid ∧ IsUid detailed.uid
  uploads : ∀ upload ∈ app.uploads, IsUid upload.card.uid

/-- Reading the cards raises exactly if the user has no folder. -/
theorem raises_startLoad {initial : Bool} :
    Raises (app.startLoad initial) ↔ DatabaseService.Unnamed app.defaults := by
  -- The folder is addressed before the load is recorded.
  unfold startLoad
  rw [raises_bind, DatabaseService.raises_loadDataFromDb]
  constructor
  · rintro (unnamed | ⟨path, _, raised⟩)
    · exact unnamed
    · -- A load that may start does so.
      cases path with
      | none => exact absurd raised not_raises_ok
      | some path => exact absurd raised not_raises_ok
  · exact .inl

/-- Adding a card raises exactly if its key is new and the user has no folder. -/
theorem raises_saveToDbAndNotify {hasDelegate : Bool} {name barcode : String} {autoId : PushId} :
    Raises (app.saveToDbAndNotify hasDelegate name barcode autoId) ↔
      app.isFreshId autoId = true ∧ DatabaseService.Unnamed app.defaults := by
  -- Only saving the card addresses the database; the delegate is told afterwards.
  unfold saveToDbAndNotify
  rw [raises_offered, raises_bind, DatabaseService.raises_saveCard]
  refine and_congr_right fun _ => ⟨?_, .inl⟩
  rintro (unnamed | ⟨⟨server, cardId⟩, _, raised⟩)
  · exact unnamed
  · exact absurd raised not_raises_ok

/-- The bucket refuses addresses in its own way. -/
def BucketFaults (platform : Platform) : Prop :=
  ∀ url, ¬ Raises (platform.referenceForURL url)

/-- Removing a stored picture does not concern the database. -/
theorem not_raises_removeOldCard (bucket : BucketFaults platform)
    {edit : EditCardTableViewController} {server : Server} :
    ¬ Raises (edit.removeOldCard platform server) := by
  -- Deleting a picture asks the bucket, whose faults are of another kind.
  unfold EditCardTableViewController.removeOldCard
  split
  · exact not_raises_ok
  · unfold DatabaseService.removeImageFromStorage
    rw [raises_map]
    exact bucket _

/-- Without a use of the cards nothing is refused. -/
private theorem raises_iff_of_none {action : Action} (unused : app.cardsUse platform action = none)
    (fine : ¬ Raises (app.step platform action)) :
    Raises (app.step platform action) ↔ app.Endangered platform action := by
  -- Without a use nothing is endangered.
  refine ⟨fun raised => absurd raised fine, ?_⟩
  rintro ⟨use, used, _⟩
  rw [unused] at used
  cases used

/-- A step that uses the cards raises exactly if the use is refused. -/
private theorem raises_iff_of_some {action : Action} {use : CardsUse}
    (used : app.cardsUse platform action = some use)
    (raises : Raises (app.step platform action) ↔ use.Refused (app.settings action)) :
    Raises (app.step platform action) ↔ app.Endangered platform action := by
  -- The use is the only one of the action.
  rw [raises, Endangered]
  constructor
  · intro refused
    exact ⟨use, used, refused⟩
  · rintro ⟨other, same, refused⟩
    rw [used] at same
    cases same
    exact refused

/-- A step that is not offered raises nothing. -/
private theorem not_raises_unavailable {α : Type} : ¬ Raises (.error .unavailable : Except Fault α) := by
  rintro ⟨pathString, raised⟩
  cases raised

/-- A new card that is reported raises as described, whichever way it was entered. -/
private theorem raises_added {action : Action} {hasDelegate : Bool} {name barcode : String}
    {autoId : PushId} (settings : app.settings action = app.defaults)
    (step : app.step platform action = app.saveToDbAndNotify hasDelegate name barcode autoId)
    (use : app.cardsUse platform action =
      if app.isFreshId autoId = true then some .folder else none) :
    Raises (app.step platform action) ↔ app.Endangered platform action := by
  -- A key that is not fresh makes the step impossible.
  by_cases fresh : app.isFreshId autoId = true
  · refine raises_iff_of_some (by rw [use, if_pos fresh]) ?_
    rw [step, raises_saveToDbAndNotify, refused_folder, settings]
    exact and_iff_right fresh
  · refine raises_iff_of_none (by rw [use, if_neg fresh]) ?_
    rw [step, raises_saveToDbAndNotify]
    exact fun raised => fresh raised.1

/-- Saving notes raises as described. -/
private theorem raises_saveNotesClicked (uids : app.Uids) (text : String) :
    Raises (app.step platform (.saveNotesClicked text)) ↔
      app.Endangered platform (.saveNotesClicked text) := by
  -- Notes are written from the detail screen only.
  cases shown : app.screen with
  | detailed detailed =>
    have used : app.cardsUse platform (.saveNotesClicked text) = some (.record detailed.uid) := by
      simp [cardsUse, shown]
    refine raises_iff_of_some used ?_
    have written := @raises_record app.defaults app.server detailed.uid
      (fun cardRef => .updateChildValues cardRef [(Key.notes, some (.string text))])
      (uids.detailed detailed shown)
    simp only [step, saveNotesClicked, shown, settings]
    rw [raises_bind]
    constructor
    · rintro (raised | ⟨server, _, raised⟩)
      · exact written.mp raised
      · exact absurd raised not_raises_ok
    · intro refused
      exact .inl (written.mpr refused)
  | _ =>
    refine raises_iff_of_none (by simp [cardsUse, shown]) ?_
    simp only [step, saveNotesClicked, shown]
    exact not_raises_unavailable

/-- Saving an edited card uses the bucket only. -/
private theorem not_raises_saveCard (bucket : BucketFaults platform) (name barcode : String)
    (image : UIImage) (uuid : String) :
    ¬ Raises (app.saveCard platform name barcode image uuid) := by
  -- A save deletes the old picture and starts an upload, but writes no record yet.
  unfold saveCard
  split
  · split
    · rw [raises_offered]
      rintro ⟨_, raised⟩
      rcases raises_bind.mp raised with raised | ⟨_, _, raised⟩
      · exact not_raises_removeOldCard bucket raised
      · exact not_raises_ok raised
    · exact not_raises_ok
  · exact not_raises_unavailable

/-- Deleting a card raises as described. -/
private theorem raises_deleteCard (bucket : BucketFaults platform) (uids : app.Uids) :
    Raises (app.step platform .deleteCard) ↔ app.Endangered platform .deleteCard := by
  -- The picture is deleted first, and then the record is written.
  cases shown : app.screen with
  | edit edit detailed =>
    simp only [step, deleteCard, shown]
    cases removed : edit.removeOldCard platform app.server with
    | error fault =>
      have fine : ¬ Raises (.error fault : Except Fault App) := by
        rintro ⟨pathString, raised⟩
        cases raised
        exact not_raises_removeOldCard bucket ⟨pathString, removed⟩
      have unused : app.cardsUse platform .deleteCard = none := by simp [cardsUse, shown, removed]
      refine ⟨fun raised => absurd raised fine, ?_⟩
      rintro ⟨use, used, _⟩
      rw [unused] at used
      cases used
    | ok cleaned =>
      have used : app.cardsUse platform .deleteCard = some (.record edit.uid) := by
        simp [cardsUse, shown, removed]
      have deleted := @raises_record app.defaults cleaned edit.uid .removeValue
        (uids.edit edit detailed shown).1
      rw [raises_bind]
      constructor
      · rintro (raised | ⟨_, done, raised⟩)
        · exact absurd raised not_raises_ok
        · cases done
          rcases raises_bind.mp raised with raised | ⟨server, written, raised⟩
          · exact ⟨_, used, deleted.mp raised⟩
          · rcases raises_bind.mp raised with raised | ⟨_, _, raised⟩
            · -- The list is read from the same folder again.
              refine ⟨_, used, ?_⟩
              unfold userDidRemoveData at raised
              split at raised
              · obtain ⟨user, known, unnamed⟩ := raises_startLoad.mp raised
                exact ⟨user, known, .inl unnamed⟩
              · exact absurd raised not_raises_ok
            · exact absurd raised not_raises_ok
      · rintro ⟨use, same, refused⟩
        rw [used] at same
        cases same
        exact .inr ⟨cleaned, rfl, raises_bind.mpr (.inl (deleted.mpr refused))⟩
  | _ =>
    refine raises_iff_of_none (by simp [cardsUse, shown]) ?_
    simp only [step, deleteCard, shown]
    exact not_raises_unavailable

/-- The end of an upload raises as described. -/
private theorem raises_uploadFinished (uids : app.Uids) (task : Nat) (result : UploadResult) :
    Raises (app.step platform (.uploadFinished task result)) ↔
      app.Endangered platform (.uploadFinished task result) := by
  -- A record is written only when a known upload delivers an address in its own place.
  cases found : app.uploads.find? fun upload => upload.task = task with
  | none =>
    refine raises_iff_of_none (by cases result <;> simp [cardsUse, found]) ?_
    simp only [step, uploadFinished, found]
    exact not_raises_unavailable
  | some upload =>
    have member := List.mem_of_find?_eq_some found
    cases result with
    | putDataFailed =>
      refine raises_iff_of_none rfl ?_
      simp only [step, uploadFinished, found]
      exact not_raises_ok
    | downloadURLFailed url =>
      refine raises_iff_of_none rfl ?_
      simp only [step, uploadFinished, found, raises_offered]
      exact fun raised => not_raises_ok raised.2
    | stored url =>
      by_cases named : platform.referenceForURL url = .ok upload.path
      · have used : app.cardsUse platform (.uploadFinished task (.stored url)) =
            some (.record upload.card.uid) := by
          simp [cardsUse, found, named]
        refine raises_iff_of_some used ?_
        simp only [step, uploadFinished, found, raises_offered, settings]
        rw [raises_bind]
        have written := @raises_record app.defaults
          (app.server.putData ⟨upload.path, upload.data, url⟩) upload.card.uid
          (fun cardRef => .updateChildValues cardRef
            [(Key.name, some (.string upload.card.name)),
             (Key.barcode, some (.string upload.card.barcode)),
             (Key.absoluteURL, some (.string url))])
          (uids.uploads upload member)
        constructor
        · rintro ⟨_, raised | ⟨server, _, raised⟩⟩
          · exact written.mp raised
          · exact absurd raised not_raises_ok
        · intro refused
          exact ⟨named, .inl (written.mpr refused)⟩
      · refine raises_iff_of_none (by simp [cardsUse, found, named]) ?_
        simp only [step, uploadFinished, found, raises_offered]
        exact fun raised => named raised.1

/-- A step of the program raises exactly if it uses the cards in a way that is refused. -/
theorem raises_step (bucket : BucketFaults platform) (uids : app.Uids) (action : Action) :
    Raises (app.step platform action) ↔ app.Endangered platform action := by
  -- One case for each action, by the lemma about what the action does.
  cases action with
  | homeViewDidLoad =>
    refine raises_iff_of_some rfl ?_
    rw [refused_folder]
    exact raises_startLoad
  | snapshotRead task =>
    refine raises_iff_of_none rfl ?_
    simp [step, snapshotRead, raises_offered]
  | loadDelivered task =>
    refine raises_iff_of_none rfl ?_
    simp only [step, loadDelivered]
    split
    · split <;> exact not_raises_ok
    · exact not_raises_unavailable
  | searchChanged isActive text =>
    refine raises_iff_of_none rfl ?_
    simp [step, raises_offered]
  | addCardSegue =>
    refine raises_iff_of_none rfl ?_
    simp [step, raises_offered]
  | cellSegue row =>
    refine raises_iff_of_none rfl ?_
    simp only [step, cellSegue, raises_offered]
    rintro ⟨_, raised⟩
    rcases raises_bind.mp raised with ⟨pathString, raised⟩ | ⟨_, _, raised⟩
    · -- A row that no longer exists ends the program in another way.
      unfold HomeViewController.detailedCard at raised
      split at raised
      · cases raised
      · split at raised <;> cases raised
    · exact not_raises_ok raised
  | scanned name barcode autoId =>
    cases shown : app.screen with
    | scanner hasDelegate =>
      have added : app.step platform (.scanned name barcode autoId) =
          app.saveToDbAndNotify hasDelegate (if name.isEmpty then "Unknown" else name) barcode
            autoId := by
        simp only [step, scanned, shown]
      exact raises_added rfl added (by simp only [cardsUse, shown])
    | _ =>
      refine raises_iff_of_none (by simp [cardsUse, shown]) ?_
      simp only [step, scanned, shown]
      exact not_raises_unavailable
  | addNewCard name barcode autoId =>
    cases shown : app.screen with
    | scanner hasDelegate =>
      by_cases missing : (name.isEmpty || barcode.isEmpty) = true
      · refine raises_iff_of_none (by simp only [cardsUse, shown, missing, if_true]) ?_
        simp only [step, addNewCard, shown, missing, if_true]
        exact not_raises_ok
      · rw [Bool.not_eq_true] at missing
        have added : app.step platform (.addNewCard name barcode autoId) =
            app.saveToDbAndNotify hasDelegate name barcode autoId := by
          simp only [step, addNewCard, shown, missing, Bool.false_eq_true, if_false]
        refine raises_added rfl added ?_
        simp only [cardsUse, shown, missing, Bool.false_eq_true, if_false]
    | _ =>
      refine raises_iff_of_none (by simp [cardsUse, shown]) ?_
      simp only [step, addNewCard, shown]
      exact not_raises_unavailable
  | saveNotesClicked text => exact raises_saveNotesClicked uids text
  | editSegue =>
    refine raises_iff_of_none rfl ?_
    simp only [step]
    split
    · exact not_raises_ok
    · exact not_raises_unavailable
  | saveCard name barcode image uuid =>
    exact raises_iff_of_none rfl (not_raises_saveCard bucket name barcode image uuid)
  | deleteCard => exact raises_deleteCard bucket uids
  | back =>
    refine raises_iff_of_none rfl ?_
    simp only [step, back]
    split
    · exact not_raises_ok
    · exact not_raises_ok
    · exact not_raises_ok
    · exact not_raises_unavailable
  | uploadFinished task result => exact raises_uploadFinished uids task result
  | logoutPressed =>
    refine raises_iff_of_none rfl ?_
    simp [step, logoutPressed, raises_offered]
  | signedIn user =>
    by_cases shown : app.screen = .entry
    · have used : app.cardsUse platform (.signedIn user) = some .folder := by simp [cardsUse, shown]
      refine raises_iff_of_some used ?_
      simp only [step, signedIn, raises_offered, refused_folder]
      rw [and_iff_right shown]
      exact raises_startLoad
    · refine raises_iff_of_none (by simp [cardsUse, shown]) ?_
      simp only [step, signedIn, raises_offered]
      exact fun raised => shown raised.1
  | launch =>
    refine raises_iff_of_none rfl ?_
    simp [step, launch]

/-- A row opens a card object, or a screen without any card. -/
private theorem isUid_of_detailedCard {row : Nat} {opened : DetailedViewController}
    (objects : app.home.Objects fun card => IsUid card.uid)
    (filled : app.home.detailedCard row = .ok opened) : IsUid opened.uid := by
  -- A card of the list keeps its uid, and an unloaded list opens an empty card.
  unfold HomeViewController.detailedCard at filled
  split at filled
  · cases filled
    exact .inr rfl
  · split at filled
    · cases filled
    · rename_i ref shown
      cases filled
      have member := List.mem_of_getElem? shown
      exact objects.good ref (objects.displayed ref member)

/-- An upload carries the uid of the edit screen that started it. -/
private theorem isUid_of_startedUpload {action : Action} {upload : Upload} (uids : app.Uids)
    (started : app.startedUpload action = some upload) : IsUid upload.card.uid := by
  obtain ⟨_, edit, detailed, shown, uid⟩ := of_startedUpload started
  rw [uid]
  exact (uids.edit edit detailed shown).1

/-- A screen that opens carries the uid of the screen it was opened from. -/
private theorem isUid_of_screen {action : Action} (uids : app.Uids)
    (stepped : Steps platform app action after) :
    (∀ detailed, after.screen = .detailed detailed → IsUid detailed.uid) ∧
      ∀ edit detailed, after.screen = .edit edit detailed → IsUid edit.uid ∧ IsUid detailed.uid := by
  -- The screens that show a card hand it on to one another.
  cases stepped with
  | cellSegue shown inside filled =>
    refine ⟨?_, by simp⟩
    rintro _ ⟨⟩
    have named := isUid_of_detailedCard uids.objects filled
    exact named
  | @saveNotesClicked detailed server text shown written =>
    refine ⟨?_, by simp⟩
    rintro _ ⟨⟩
    exact uids.detailed detailed shown
  | @editSegue detailed shown =>
    refine ⟨by simp, ?_⟩
    rintro _ _ ⟨⟩
    exact ⟨uids.detailed detailed shown, uids.detailed detailed shown⟩
  | @saveCard edit detailed server name barcode uuid image shown filled fresh removed =>
    refine ⟨?_, by simp [saved]⟩
    rintro _ ⟨⟩
    exact (uids.edit edit detailed shown).2
  | @backToDetail edit detailed shown =>
    refine ⟨?_, by simp⟩
    rintro _ ⟨⟩
    exact (uids.edit edit detailed shown).2
  | snapshotRead asked => exact ⟨uids.detailed, uids.edit⟩
  | loadDelivered found answered => exact ⟨uids.detailed, uids.edit⟩
  | searchChanged shown => exact ⟨uids.detailed, uids.edit⟩
  | addNewCardAlert shown missing => exact ⟨uids.detailed, uids.edit⟩
  | saveCardAlert shown missing => exact ⟨uids.detailed, uids.edit⟩
  | uploadFailed found => exact ⟨uids.detailed, uids.edit⟩
  | downloadURLFailed found named => exact ⟨uids.detailed, uids.edit⟩
  | uploadStored found named written => exact ⟨uids.detailed, uids.edit⟩
  | homeViewDidLoad => exact ⟨by simp, by simp⟩
  | signedIn shown => exact ⟨by simp, by simp⟩
  | deleteCard shown removed deleted => exact ⟨by simp [popToRoot], by simp [popToRoot]⟩
  | backToRoot shown => exact ⟨by simp [popToRoot], by simp [popToRoot]⟩
  | scanned shown fresh stored => exact ⟨by simp [added, popToRoot], by simp [added, popToRoot]⟩
  | addNewCard shown filled fresh stored =>
    exact ⟨by simp [added, popToRoot], by simp [added, popToRoot]⟩
  | _ => exact ⟨by simp, by simp⟩

/-- Every step keeps the uids. -/
theorem Uids.step {action : Action} (uids : app.Uids) (stepped : Steps platform app action after) :
    after.Uids := by
  obtain ⟨detailed, edit⟩ := isUid_of_screen uids stepped
  refine ⟨objects_step uids.objects stepped ?_ uids.read, ?_, detailed, edit, ?_⟩
  · intro server cardId parameters autoId stored
    rcases DatabaseService.saveCard_ok stored with ⟨_, _, rfl⟩ | ⟨_, _, rfl, _⟩
    · exact .inr rfl
    · exact .inl ⟨autoId.key, rfl⟩
  · intro load pending cards answered card listed
    rcases loads_cases stepped pending with old | unanswered | read
    · exact uids.read load old cards answered card listed
    · simp [unanswered] at answered
    · obtain rfl := Option.some.inj (read.symm.trans answered)
      exact .inl (Node.exists_key_of_mem_uids (List.mem_map_of_mem listed))
  · intro upload pending
    rcases pending_cases stepped pending with old | started
    · exact uids.uploads upload old
    · exact isUid_of_startedUpload uids started

/-- A load that starts keeps the uids. -/
theorem Uids.withLoad (uids : app.Uids) (initial : Bool) : (app.withLoad initial).Uids := by
  -- Loading the home screen starts at most one load.
  refine ⟨by simpa using uids.objects, ?_, by simpa using uids.detailed, by simpa using uids.edit,
    by simpa using uids.uploads⟩
  intro load pending cards answered
  unfold App.withLoad at pending
  split at pending
  · exact uids.read load pending cards answered
  · rcases List.mem_append.mp pending with old | new
    · exact uids.read load old cards answered
    · -- The new load is not answered yet.
      rw [List.mem_singleton.mp new] at answered
      cases answered

end App

namespace AppDelegate

variable {platform : Platform} {delegate after : AppDelegate}
  {history : List (AppDelegate × AppEvent)}

/-- What an event does with the cards of the user. -/
def cardsUse (platform : Platform) (delegate : AppDelegate) : AppEvent → Option CardsUse
  | .action action =>
    match delegate.app.cardsUse platform action, action with
    | some use, _ => some use
    | none, .back =>
      -- The home screen below loads its view when it is shown for the first time.
      match delegate.app.screen with
      | .detailed _ | .scanner _ => if delegate.homeLoaded then none else some .folder
      | _ => none
    | none, _ => none
  | .enter _ => none

/-- The settings under which an event uses the cards. -/
def settings (delegate : AppDelegate) : AppEvent → UserDefaults
  | .action action => delegate.app.settings action
  | .enter _ => delegate.app.defaults

/-- An event uses the cards for a user whose e-mail address names no folder, or for a card without
a uid. -/
def Endangered (platform : Platform) (delegate : AppDelegate) (event : AppEvent) : Prop :=
  ∃ use, delegate.cardsUse platform event = some use ∧ use.Refused (delegate.settings event)

/-- The uids are as described, and a home screen that is shown has loaded its view. -/
structure Sound (delegate : AppDelegate) : Prop where
  uids : delegate.app.Uids
  loaded : delegate.app.screen = .home → delegate.homeLoaded = true

/-- The card that is stored for the shortcut has no uid. -/
private theorem uids_enter (uids : delegate.app.Uids) (entrance : Entrance) :
    (delegate.enter platform entrance).app.Uids ∧
      (delegate.enter platform entrance).app.screen ≠ .home := by
  -- The new home screen lists nothing, and the stored card comes without a uid.
  have fresh : (HomeViewController.new delegate.app.nextHome).Objects fun card => IsUid card.uid :=
    HomeViewController.objects_new _
  unfold enter
  split
  · exact ⟨⟨fresh, uids.read, by simp, by simp, uids.uploads⟩, by simp⟩
  · rename_i detailed root
    obtain ⟨card, data, _, _, _, rfl⟩ := of_cardDetails root
    refine ⟨⟨fresh, uids.read, ?_, by simp, uids.uploads⟩, by simp⟩
    rintro _ ⟨⟩
    exact .inr rfl
  · exact ⟨⟨uids.objects, uids.read, by simp, by simp, uids.uploads⟩, by simp⟩

/-- Every event keeps this. -/
private theorem Sound.next {event : AppEvent} (sound : delegate.Sound)
    (taken : delegate.next platform event = some after) : after.Sound := by
  -- A step on the screens may be followed by the loading of the home screen.
  cases event with
  | action action =>
    obtain ⟨app, stepped, ⟨rfl, loaded⟩ | ⟨_, _, rfl⟩⟩ := action_ok taken
    · exact ⟨sound.uids.step stepped, loaded⟩
    · exact ⟨(sound.uids.step stepped).withLoad true, fun _ => rfl⟩
  | enter entrance =>
    obtain rfl := enter_ok taken
    obtain ⟨uids, elsewhere⟩ := @uids_enter platform delegate sound.uids entrance
    exact ⟨uids, fun home => absurd home elsewhere⟩

/-- A started process has neither cards nor a home screen yet. -/
private theorem sound_of_run {server : Server} {defaults : UserDefaults}
    (run : Run (AppDelegate.next platform) (launched server defaults) history delegate) :
    delegate.Sound := by
  -- A started process shows no card.
  have initially : (launched server defaults).Sound :=
    ⟨⟨HomeViewController.objects_new 0, by simp [launched, App.launched],
      by simp [launched, App.launched], by simp [launched, App.launched],
      by simp [launched, App.launched]⟩, by simp [launched, App.launched]⟩
  exact run.invariant_always (fun sound taken => sound.next taken) initially


/-- A home screen that comes to be shown was created for it, or follows a use of the cards, or is
what lies below a screen that is left. -/
private theorem home_cases {app result : App} {action : Action}
    (stepped : App.Steps platform app action result) (shown : result.screen = .home)
    (elsewhere : app.screen ≠ .home) (below : loadsHome action = false) :
    result.defaults = app.defaults ∧ app.settings action = app.defaults ∧
      ((app.cardsUse platform action).isSome = true ∨
        action = .back ∧ ((∃ detailed, app.screen = .detailed detailed) ∨
          ∃ hasDelegate, app.screen = .scanner hasDelegate)) := by
  -- The home screen is shown again after a new card, a deletion and a step back.
  cases stepped with
  | homeViewDidLoad => cases below
  | signedIn entered => cases below
  | scanned opened fresh stored => exact ⟨rfl, rfl, .inl (by simp [App.cardsUse, opened, fresh])⟩
  | addNewCard opened filled fresh stored =>
    refine ⟨rfl, rfl, .inl ?_⟩
    simp only [App.cardsUse, opened, filled, Bool.false_eq_true, if_false, fresh, if_true,
      Option.isSome_some]
  | deleteCard opened removed deleted =>
    exact ⟨by simp [App.popToRoot], rfl, .inl (by simp [App.cardsUse, opened, removed])⟩
  | backToRoot opened => exact ⟨rfl, rfl, .inr ⟨rfl, opened⟩⟩
  | snapshotRead asked => exact absurd shown elsewhere
  | loadDelivered found answered => exact absurd shown elsewhere
  | searchChanged opened => exact absurd shown elsewhere
  | addNewCardAlert opened missing => exact absurd shown elsewhere
  | saveCardAlert opened missing => exact absurd shown elsewhere
  | uploadFailed found => exact absurd shown elsewhere
  | downloadURLFailed found named => exact absurd shown elsewhere
  | uploadStored found named written => exact absurd shown elsewhere
  | addCardSegue opened => cases shown
  | cellSegue opened inside filled => cases shown
  | saveNotesClicked opened written => cases shown
  | editSegue opened => cases shown
  | saveCard opened filled fresh removed => cases shown
  | backToDetail opened => cases shown
  | logoutPressed opened => cases shown
  | launch => cases shown

/-- Showing a home screen raises exactly if its view loads then and the user has no folder. -/
private theorem raises_appear :
    Raises delegate.appear ↔ (delegate.app.screen = .home ∧ delegate.homeLoaded = false) ∧
      DatabaseService.Unnamed delegate.app.defaults := by
  -- Nothing is read unless the home screen is shown for the first time.
  unfold appear
  split
  · rename_i hidden
    rw [raises_bind, App.raises_startLoad, and_iff_right hidden]
    constructor
    · rintro (unnamed | ⟨_, _, raised⟩)
      · exact unnamed
      · exact absurd raised not_raises_ok
    · exact .inl
  · rename_i shown
    exact ⟨fun raised => absurd raised not_raises_ok, fun hidden => absurd hidden.1 shown⟩

/-- A step on the screens raises exactly if it, or the view that loads after it, is refused. -/
private theorem raises_action (bucket : App.BucketFaults platform) (sound : delegate.Sound)
    (action : Action) :
    Raises (delegate.step platform (.action action)) ↔
      delegate.Endangered platform (.action action) := by
  have step := App.raises_step bucket sound.uids action
  show Raises (delegate.app.step platform action >>= _) ↔ _
  rw [raises_bind, step]
  constructor
  · rintro (⟨use, used, refused⟩ | ⟨app, done, raised⟩)
    · exact ⟨use, by simp [cardsUse, used], refused⟩
    · -- The step itself went well, so only the view of the home screen is left.
      obtain ⟨⟨shown, hidden⟩, unnamed⟩ := raises_appear.mp raised
      rw [Bool.or_eq_false_iff] at hidden
      have elsewhere : delegate.app.screen ≠ .home := fun home => by
        simp [sound.loaded home] at hidden
      obtain ⟨kept, settings, useOrBack⟩ :=
        home_cases (App.steps_of_step done) shown elsewhere hidden.1
      rw [kept, ← settings] at unnamed
      obtain ⟨user, known, nameless⟩ := unnamed
      rcases useOrBack with used | ⟨rfl, opened⟩
      · obtain ⟨use, used⟩ := Option.isSome_iff_exists.mp used
        exact ⟨use, by simp [cardsUse, used], user, known, .inl nameless⟩
      · refine ⟨.folder, ?_, user, known, .inl nameless⟩
        rcases opened with ⟨detailed, opened⟩ | ⟨hasDelegate, opened⟩
        · simp [cardsUse, App.cardsUse, opened, hidden.2]
        · simp [cardsUse, App.cardsUse, opened, hidden.2]
  · rintro ⟨use, used, refused⟩
    cases own : delegate.app.cardsUse platform action with
    | some other =>
      obtain rfl : other = use := by simpa [cardsUse, own] using used
      exact .inl ⟨other, own, refused⟩
    | none =>
      right
      -- Only leaving a screen above a hidden home screen uses the cards later.
      cases action with
      | back =>
        have unloaded : delegate.homeLoaded = false := by
          by_contra loaded
          rw [Bool.not_eq_false] at loaded
          cases screen : delegate.app.screen <;> simp [cardsUse, own, screen, loaded] at used
        have folder : use = .folder := by
          cases screen : delegate.app.screen <;> simp [cardsUse, own, screen, unloaded] at used <;>
            exact used.symm
        have left : delegate.app.step platform .back = .ok delegate.app.popToRoot := by
          cases screen : delegate.app.screen <;>
            simp [cardsUse, own, screen, unloaded] at used <;>
            simp [App.step, App.back, screen]
        subst folder
        refine ⟨_, left, raises_appear.mpr ⟨⟨rfl, by simp [loadsHome, unloaded]⟩, ?_⟩⟩
        exact refused_folder.mp refused
      | _ => simp [cardsUse, own] at used

/-- In every state that a started process reaches, an event passes an invalid path string to the
database exactly if it uses the cards of a user whose e-mail address names no folder, or the record
of a card that was opened from the stored one. -/
theorem raises_iff (bucket : ∀ url pathString,
      platform.referenceForURL url ≠ .error (.invalidPathValidation pathString))
    {server : Server} {defaults : UserDefaults}
    (run : Run (AppDelegate.next platform) (launched server defaults) history delegate)
    (event : AppEvent) :
    (∃ pathString, delegate.step platform event = .error (.invalidPathValidation pathString)) ↔
      delegate.Endangered platform event := by
  -- Entering the program addresses no cards; the other events are steps on the screens.
  have faults : App.BucketFaults platform := fun url ⟨pathString, raised⟩ => bucket url pathString raised
  cases event with
  | action action => exact raises_action faults (sound_of_run run) action
  | enter entrance => simp [step, Endangered, cardsUse]

instance {event : AppEvent} : Decidable (delegate.Endangered platform event) :=
  inferInstanceAs (Decidable (∃ use, use ∈ delegate.cardsUse platform event ∧ _))

/-- The bucket of the small installation has faults of its own. -/
private theorem bucket_ascii (url pathString : String) :
    Platform.ascii.referenceForURL url ≠ .error (.invalidPathValidation pathString) := by
  unfold Platform.ascii
  dsimp only
  split <;> simp

/-- Notes of a card that was opened from the list are saved without a fault. -/
theorem raises_iff_listed :
    ∃ delegate, Run (AppDelegate.next Platform.ascii) installed
        (Run.trace (AppDelegate.next Platform.ascii) installed cardOpened) delegate ∧
      ¬ ∃ pathString, delegate.step Platform.ascii (.action (.saveNotesClicked "new")) =
        .error (.invalidPathValidation pathString) := by
  -- The user has a folder, and the card of the list has a uid.
  obtain ⟨delegate, run, safe⟩ := @Run.of_exec_any _ _ (AppDelegate.next Platform.ascii) installed
    cardOpened (fun delegate => ¬ delegate.Endangered Platform.ascii (.action (.saveNotesClicked "new")))
    (by decide +kernel)
  have raises := raises_iff bucket_ascii run (.action (.saveNotesClicked "new"))
  exact ⟨delegate, run, fun raised => of_decide_eq_true safe (raises.mp raised)⟩

/-- Notes of a card that was opened by the shortcut are saved under the empty path string. -/
theorem stored_card_raises :
    ¬ ∀ (server : Server) (defaults : UserDefaults) (history : List (AppDelegate × AppEvent))
        (delegate : AppDelegate) (event : AppEvent) (pathString : String),
        Run (AppDelegate.next Platform.ascii) (launched server defaults) history delegate →
        delegate.step Platform.ascii event ≠ .error (.invalidPathValidation pathString) := by
  -- The shortcut opens the stored card, which has no uid.
  intro always
  obtain ⟨delegate, run, raised⟩ := @Run.of_exec_any _ _ (AppDelegate.next Platform.ascii) installed
    (cardOpened ++ [.enter .openLast])
    (fun delegate =>
      match delegate.step Platform.ascii (.action (.saveNotesClicked "new")) with
      | .error fault => fault = .invalidPathValidation ""
      | .ok _ => false)
    (by decide +kernel)
  refine always _ _ _ delegate (.action (.saveNotesClicked "new")) "" run ?_
  split at raised
  · rename_i fault stepped
    rw [stepped, of_decide_eq_true raised]
  · cases raised

end AppDelegate

end CardGuru
